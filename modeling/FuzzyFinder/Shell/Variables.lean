import FuzzyFinder.Shell.Transfer

/-!
# FuzzyFinder — variables

Variables have values, may be seen by programs, and may be locked. Some calls have variables of
their own, and what these were before comes back at the end of the call.
-/

namespace FuzzyFinder

namespace Shell

/-- A variable. -/
def State.binding? (s : State) (name : Text) : Option Variable := s.bindings.lookup name

/-- The value of a variable. -/
def State.value? (s : State) (name : Text) : Option Text := (s.binding? name).bind (·.value)

/-- Puts a variable in place of the one with its name, or takes that away. -/
def State.putVariable (s : State) (name : Text) (v : Option Variable) : State :=
  { s with bindings := putEntry name v s.bindings }

/-- The name of the variable that says where options are looked for. -/
def optionIndexName : Text := "OPTIND".toList

/-- Puts a value into a variable and perhaps marks it. -/
def State.store (s : State) (name : Text) (value : Option Text) (exports locks : Bool) : State :=
  let old := (s.binding? name).getD {}
  s.putVariable name <| some {
    value := value.or old.value
    exported := old.exported || exports || s.has .allexport
    readOnly := old.readOnly || locks }

/-- The name of the variable that lists the directories of programs. -/
def pathName : Text := "PATH".toList

/-- Forgets what programs have been looked up, if a variable that has changed matters to that. -/
def State.afterChange (s : State) (name : Text) : State :=
  if name == pathName then { s with lookedUp := [] } else s

/-- Complains about something that is no name. -/
def badName {α : Type} (name : Text) : Run α := fail (name ++ Text.ofString ": bad variable name")

/-- Puts the place where options are looked for next. -/
def setOptionIndex (value : Text) : Run Unit := do
  let index ← number value
  modify fun s => { s with optionCursor := { index := max 1 index } }

/-- The name of a variable as it has been written: it ends at an equals sign. -/
def checkedName (written : Text) : Run Text := do
  let name := written.takeWhile (· != '=')
  unless Text.isName name do badName name
  return name

/-- Puts a value into a variable and perhaps marks it. Where the variable must not change, the
command fails. -/
def setVariable (written : Text) (value : Option Text) (exports locks : Bool) : Run Unit := do
  let name ← checkedName written
  let s ← get
  if ((s.binding? name).getD {}).readOnly && value.isSome then
    fail (name ++ Text.ofString ": is read only")
  if name == optionIndexName then
    if let some v := value then setOptionIndex v
  modify fun s => s.store name value exports locks
  if value.isSome then modify fun s => s.afterChange name

/-- Gives a variable a value. -/
def assign (name value : Text) : Run Unit := setVariable name (some value) false false

/-- Takes a variable away; tells whether that was possible. -/
def unsetVariable (name : Text) : Run Unit := do
  let s ← get
  match s.binding? name with
  | none => return ()
  | some v =>
    if v.readOnly then fail (name ++ Text.ofString ": is read only")
    set ((s.putVariable name none).afterChange name)

/-- Notes what something that the current call has of its own was before it. -/
def shadow (old : Shadowed) : Run Unit :=
  modify fun s =>
    match s.shadowed with
    | [] => s
    | own :: outer => { s with shadowed := (old :: own) :: outer }

/-- Makes a variable the current call's own: what it was before comes back at its end. -/
def shadowVariable (name : Text) : Run Unit := do
  shadow (.variable name ((← get).binding? name))

/-- Brings back what was there before a call. -/
def State.restore (s : State) : Shadowed → State
  | .options old => { s with options := old }
  | .variable name old =>
    let s := (s.putVariable name old).afterChange name
    match (old.bind (·.value)).bind Text.toNat? with
    | some index =>
      if name == optionIndexName then { s with optionCursor := { index := max 1 index } } else s
    | none => s

/-- Does something that may have variables of its own. -/
def withOwnVariables {α : Type} (action : Run α) : Run α := do
  modify fun s => { s with shadowed := [] :: s.shadowed }
  ensuring action <| modify fun s =>
    match s.shadowed with
    | [] => s
    | own :: outer => own.foldl State.restore { s with shadowed := outer }

/-- The separators of arguments, `none` for the usual ones. -/
def State.separators? (s : State) : Option Text := s.value? ['I', 'F', 'S']

end Shell

end FuzzyFinder
