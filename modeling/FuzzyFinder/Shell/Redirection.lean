import FuzzyFinder.Shell.Expansion

/-!
# FuzzyFinder — redirections

Before a command runs, the words of its redirections are expanded, and then each redirection lets a
descriptor stand for something else. Behind the command, the descriptors stand for what they stood
for before.
-/

namespace FuzzyFinder

namespace Shell

namespace Redirection

/-- A redirection whose words have been expanded. -/
inductive Prepared where
  /-- Opens a file. -/
  | file (descriptor : Nat) (opening : Opening) (path : Text)
  /-- Makes it stand for what another descriptor stands for; `none` closes it. -/
  | duplicate (descriptor : Nat) (source : Option Nat)
  /-- Reads from the document with a number. -/
  | document (descriptor : Nat) (index : Nat)

/-- The descriptor that is to stand for something else. -/
def Prepared.descriptor : Prepared → Nat
  | .file d .. => d
  | .duplicate d _ => d
  | .document d _ => d

/-- The descriptor that a word names: a digit, or nothing for a hyphen. -/
def sourceOf (t : Text) : Run (Option Nat) :=
  match t with
  | ['-'] => return none
  | [c] => if c.isDigit then return some (Text.valueIn 10 [c]) else bad
  | _ => bad
where
  /-- Complains about anything else. -/
  bad : Run (Option Nat) := do
    modify fun s => { s with line := s.lineRead }
    fail (Text.ofString "Syntax error: Bad fd number")

/-- Expands the words of a redirection. -/
def prepare (substitute : Substitute) (r : Redirection) : Run Prepared := do
  match r with
  | .file d opening name => return .file d opening (← expandText substitute { tilde := true } name)
  | .duplicate d source => return .duplicate d source
  | .duplicateWord d source =>
    return .duplicate d (← sourceOf (← expandText substitute { tilde := true } source))
  | .document d index => return .document d index

/-- Opens what a path leads to; the path of a descriptor leads to what this stands for. -/
def openPath (path : Text) (access : Access) (appends truncates replaces : Bool) :
    Run (Except FileFault Handle) := do
  let s ← get
  unless s.canOpen 1 do return .error .tooManyOpen
  let openAt (directory : Place) (path : Text) : Run (Except FileFault Handle) := do
    match s.openAt directory path access appends truncates replaces with
    | .ok (h, system) =>
      set { s with toSystem := system }
      return .ok h
    | .error e => return .error e
  match System.descriptorAt? path with
  | none => openAt s.directory path
  | some n =>
    match s.handle? n with
    | none => return .error .missing
    | some (.device d _) => return .ok (.device d access)
    | some (.file index) =>
      match s.openFiles[index]? with
      | some f => openAt [] (System.pathOf f.place)
      | none => return .error .missing
    | some h => return .ok h

/-- Opens what a path leads to for reading. -/
def openForReading (path : Text) : Run (Except FileFault Handle) :=
  openPath path ⟨true, false⟩ false false true

/-- Opens a file as a redirection asks for. -/
def openFile (opening : Opening) (path : Text) : Run Handle := do
  let keeps := (← get).has .noclobber
  let opened ← match opening with
    | .read => openForReading path
    | .write => openPath path ⟨false, true⟩ false true (!keeps)
    | .overwrite => openPath path ⟨false, true⟩ false true true
    | .append => openPath path ⟨false, true⟩ true false true
    | .both => openPath path ⟨true, true⟩ false false true
  match opened with
  | .ok h => return h
  | .error e =>
    let (verb, otherwise) :=
      if opening == .read then ("cannot open ", "No such file")
      else ("cannot create ", "Directory nonexistent")
    fail (Text.ofString verb ++ path ++ Text.ofString (": " ++ e.describe otherwise))

/-- Complains that a descriptor cannot be used. -/
def refuse {α : Type} (descriptor : Nat) (reason : String) : Run α :=
  fail (Text.ofNat descriptor ++ Text.ofString (": " ++ reason))

/-- The descriptors of handles that are kept are at least this. -/
def leastKept : Nat := 10

/-- Keeps the handle of a descriptor, if there is one, unless there are as many descriptors as there
may be. -/
def keep (d : Nat) : Run Unit := do
  let s ← get
  if (s.handle? d).isSome then
    if let some limit := s.limit? 'n' then
      if limit ≤ leastKept + s.keptHandles then
        modify fun s => s.setHandle d none
        refuse d (if limit ≤ leastKept then "Invalid argument" else FileFault.tooManyOpen.message)
  modify fun s => s.keep d

/-- Lets a descriptor stand for a handle, which `other` stands for as well, unless its number is too
great for a descriptor. -/
def replace (d other : Nat) (h : Handle) : Run Unit := do
  if ((← get).limit? 'n').any (· ≤ d) then refuse other FileFault.badDescriptor.message
  modify fun s => s.setHandle d (some h)

/-- Lets a descriptor stand for something else. What it stood for is kept, unless its number is
among those of descriptors for which that is done. -/
def apply (substitute : Substitute) (done : List Nat) (r : Prepared) : Run Unit := do
  let keepOnce (d : Nat) : Run Unit := unless done.contains d do keep d
  match r with
  | .file d opening path =>
    let h ← openFile opening path
    keepOnce d
    replace d (← get).freeDescriptor h
  | .duplicate d none =>
    keepOnce d
    modify fun s => s.setHandle d none
  | .duplicate d (some source) =>
    unless source == d do
      let h := (← get).handle? source
      keepOnce d
      match h with
      | some h => replace d source h
      | none =>
        if d == 2 && !done.contains d then throw .failure
        refuse source FileFault.badDescriptor.message
  | .document d index =>
    let s ← get
    unless s.canOpen 2 do fail (Text.ofString "Pipe call failed")
    let h ← newSource (← expandText substitute {} ((s.documents[index]?).getD []))
    keepOnce d
    replace d (← get).freeDescriptor h

/-- Applies redirections one after the other. A descriptor that is kept is closed before it stands
for something else for the first time, so that complaints on it are not heard then. -/
def applyEach (substitute : Substitute) : (done : List Nat) → List Prepared → Run Unit
  | _, [] => return ()
  | done, r :: rest => do
    apply substitute done r
    applyEach substitute (r.descriptor :: done) rest

/-- Applies redirections one after the other. If one fails the status is that of a failure, and the
result says so. -/
def applyAll (substitute : Substitute) (rs : List Prepared) : Run Bool := do
  match ← attempt (applyEach substitute [] rs) with
  | none => return true
  | some .failure => return false
  | some leap => throw leap

/-- Does something with redirections, or something else if one of them fails. Unless they `last`,
descriptors stand afterwards for what they stood for before. -/
def redirecting (substitute : Substitute) (last : Bool) (rs : List Redirection)
    (otherwise action : Run Unit) : Run Unit := do
  if rs.isEmpty then action
  else
    let prepared ← rs.mapM (prepare substitute)
    let count := (← get).kept.length
    let applied : Run Bool := applyAll substitute prepared
    if last then
      let ok ← ensuring applied (modify fun s => s.forgetKept count)
      if ok then action else otherwise
    else
      let redirected : Run Unit := do
        if ← applied then action else otherwise
      ensuring redirected (modify fun s => s.restoreKept count)

end Redirection

end Shell

end FuzzyFinder
