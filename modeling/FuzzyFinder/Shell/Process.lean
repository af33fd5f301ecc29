import FuzzyFinder.Shell.State

/-!
# FuzzyFinder — processes

What a shell does is a change of its state, and perhaps a leap out of the commands it is in. On the
way there it may have to wait for others: then it gives away what all processes share, and goes on
when it gets that back. It may also start processes of their own.
-/

namespace FuzzyFinder

namespace Shell

/-- What a process waits for. A signal ends any waiting. -/
inductive Wait where
  /-- A channel can be read. -/
  | input (channel : Nat)
  /-- A channel can be written. -/
  | space (channel : Nat)
  /-- A process has ended. -/
  | ending (process : Nat)
  /-- Others have had their turn. -/
  | turn
  /-- Nothing but a signal. -/
  | signal

/-- What a process does that runs on its own. -/
inductive Activity where
  | ended (system : System)
  /-- A process waits. -/
  | waits (process : Nat) (wait : Wait) (system : System) (goOn : System → Activity)
  /-- It starts another process. -/
  | starts (process : Nat) (child : System → Activity) (system : System) (goOn : System → Activity)

/-- How it goes on with something that a shell does. -/
inductive Course (α : Type) where
  | done (result : α) (s : State)
  | leaps (leap : Leap) (s : State)
  /-- A process waits. -/
  | waits (process : Nat) (wait : Wait) (system : System) (goOn : System → Course α)
  /-- It starts another process. -/
  | starts (process : Nat) (child : System → Activity) (system : System) (goOn : System → Course α)

namespace Course

variable {α β : Type}

/-- Goes on with something else, also after a leap. -/
def andThen (c : Course α) (f : Except Leap α → State → Course β) : Course β :=
  match c with
  | .done a s => f (.ok a) s
  | .leaps leap s => f (.error leap) s
  | .waits p w system goOn => .waits p w system fun system => (goOn system).andThen f
  | .starts p child system goOn => .starts p child system fun system => (goOn system).andThen f

/-- Goes on with something else unless there is a leap. -/
def bind (c : Course α) (f : α → State → Course β) : Course β :=
  c.andThen fun
    | .ok a => f a
    | .error leap => .leaps leap

/-- What a process does that ends like this. -/
def toActivity (c : Course α) (finish : Except Leap α → State → System) : Activity :=
  match c with
  | .done a s => .ended (finish (.ok a) s)
  | .leaps leap s => .ended (finish (.error leap) s)
  | .waits p w system goOn => .waits p w system fun system => (goOn system).toActivity finish
  | .starts p child system goOn =>
    .starts p child system fun system => (goOn system).toActivity finish

end Course

/-- Something that a shell does. -/
def Run (α : Type) : Type := State → Course α

namespace Run

variable {α β : Type}

/-- Does one thing and then another one. -/
@[always_inline, inline]
def bind (action : Run α) (f : α → Run β) : Run β := fun s =>
  match action s with
  | .done a s => f a s
  | .leaps leap s => .leaps leap s
  | c => c.bind f

@[always_inline, inline]
instance : Monad Run where
  pure a := fun s => .done a s
  bind := Run.bind

@[always_inline, inline]
instance : MonadStateOf State Run where
  get := fun s => .done s s
  set s := fun _ => .done () s
  modifyGet f := fun s =>
    let (a, s) := f s
    .done a s

/-- Leaps out of the commands that it is in. -/
@[always_inline, inline]
instance : MonadExceptOf Leap Run where
  throw leap := fun s => .leaps leap s
  tryCatch action f := fun s =>
    (action s).andThen fun
      | .ok a => fun s => .done a s
      | .error leap => f leap

end Run

/-- Does something, and then something else that depends on how it went. -/
def settling {α β : Type} (action : Run α) (f : Except Leap α → Run β) : Run β := fun s =>
  (action s).andThen f

/-- Does something, and tells whether it leapt. -/
def attempt (action : Run Unit) : Run (Option Leap) :=
  settling action fun
    | .ok () => return none
    | .error leap => return some leap

/-- Does something, and then something else, also after a leap. -/
def ensuring {α : Type} (action : Run α) (cleanUp : Run Unit) : Run α :=
  settling action fun
    | .ok a => do
      cleanUp
      return a
    | .error leap => do
      cleanUp
      throw leap

/-- Changes what all processes share. -/
def modifySystem (f : System → System) : Run Unit :=
  modify fun s => { s with toSystem := f s.toSystem }

/-- Sets the status of the last command. -/
def setStatus (status : Nat) : Run Unit := modify fun s => { s with status }

/-! ## Signals -/

/-- The signal for a division that cannot be carried out. -/
def arithmeticSignal : Nat := 8

/-- The signal that ends a process whatever it does about it. -/
def killSignal : Nat := 9

/-- The signal for writing a channel that nobody reads. -/
def channelSignal : Nat := 13

/-- The signal for the end of a process that was started. -/
def childSignal : Nat := 17

/-- The signal for having run too long. -/
def timeSignal : Nat := 24

/-- The signal for writing more into a file than there may be in it. -/
def sizeSignal : Nat := 25

/-- The signals that do nothing where there is no trap for them. Those that only stop a process are
among them. -/
def harmlessSignals : List Nat := [17, 18, 19, 20, 21, 22, 23, 28]

/-- Takes a signal in. One with a trap waits for the end of the current command, and without one it
mostly ends the process. -/
def takeIn (signal : Nat) : Run Unit := do
  if signal == killSignal then throw (.killed signal)
  let s ← get
  if s.unheard.contains signal then return ()
  match s.traps.lookup signal with
  | some [] => return ()
  | some _ => modify fun s => { s with caught := signal :: s.caught.filter (· != signal) }
  | none => unless harmlessSignals.contains signal do throw (.killed signal)

/-- Takes in the signals that are under way to this process. -/
def receive : Run Unit := do
  let s ← get
  unless s.signals.isEmpty do
    let (here, elsewhere) := s.signals.partition (·.1 == s.process)
    unless here.isEmpty do
      modifySystem fun s => { s with signals := elsewhere }
      here.forM fun (_, signal) => takeIn signal

/-- Takes in a signal that comes from what the process itself does. It ends a program alone, if
there is one. -/
def takeOwn (signal : Nat) : Run Unit := do
  let s ← get
  if s.inProgram then
    let ignored := s.traps.lookup signal == some [] && signal != killSignal
    unless ignored do throw (.struck signal)
  else takeIn signal

/-! ## Waiting -/

/-- Waits, and takes in the signals that have come in meanwhile. -/
def await (wait : Wait) : Run Unit := do
  (fun s => .waits s.process wait s.toSystem fun system => .done () { s with toSystem := system })
  receive

/-- Lets other processes have their turn, if there are any. -/
def giveWay : Run Unit := do
  unless (← get).living.length ≤ 1 do await .turn

/-- The signal for having run for some seconds, where there is a limit on them. What cannot be
raised any more is final. -/
def State.signalAfter? (s : State) (seconds : Nat) : Option Nat :=
  match s.limits.lookup 't' with
  | none => none
  | some limit =>
    if seconds < limit.soft then none
    else some (if limit.hard ≤ seconds then killSignal else timeSignal)

/-- So many commands run before others have their turn. -/
def ticksPerTurn : Nat := 200

/-- So many commands count as a second. -/
def ticksPerSecond : Nat := 500000

/-- Counts a command. Now and then others have their turn, and the limit on time is looked at. -/
def tick : Run Unit := do
  modify fun s => { s with ticks := s.ticks + 1 }
  let s ← get
  if s.ticks % ticksPerTurn == 0 then
    giveWay
    if s.ticks % ticksPerSecond == 0 then
      if let some signal := s.signalAfter? (s.ticks / ticksPerSecond) then takeIn signal

/-! ## Starting processes -/

/-- How a shell ended that was left like this. -/
def State.ending (s : State) (result : Except Leap Unit) : Ending :=
  match result with
  | .error (.killed signal) => .killed signal
  | _ => .exited (s.status % 256)

/-- A process of its own has ended. -/
def State.finished (s : State) (result : Except Leap Unit) : System :=
  let system := s.closeAll.toSystem
  { system with
    living := system.living.filter (· != s.process)
    endings := (s.process, s.ending result) :: system.endings
    signals := (s.parent.toList.map (·, childSignal)) ++ system.signals }

/-- Starts a process of its own, which begins with the state of this shell as `prepare` leaves it.
Gives its number. -/
def start (prepare : State → State) (action : Run Unit) : Run Nat := fun s =>
  let inner := prepare s.further
  let system := { inner.toSystem with living := inner.process :: inner.living }
  let child (system : System) : Activity :=
    (action { inner with toSystem := system }).toActivity fun result s => s.finished result
  .starts inner.process child system fun system => .done inner.process { s with toSystem := system }

/-- Does something in a further shell, and waits for its end. -/
def inFurther (action : Run Unit) : Run Ending := fun s =>
  (action s.further).andThen fun result t =>
    .done (t.ending result) { s with toSystem := t.closeAll.toSystem }

end Shell

end FuzzyFinder
