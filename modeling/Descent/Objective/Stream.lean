import Descent.Factory
import Descent.Objective.Edit
import Descent.Text.Blank

/-!
# Stored objectives

An objective without changes of variables is written as lines of text: ten lines about the whole and
its variables, then four lines for each term. Variables come in the order of their scalars, free
ones first, and the terms refer to them by their places in that order. Reading registers variables
and terms in turn; it leaves the text behind the last line unread, and an objective that can not be
read is left empty.
-/

namespace Descent

def streamMagic : String := "termopt::function"

def streamVersion : Nat := 1

def typeFormat : String := "little:<f8:<i8"

namespace Registry

variable {α : Type} [Numeral α]

omit [Numeral α] in
def layoutOrder (r : Registry α) : List Nat :=
  let positions (constant : Bool) :=
    (r.vars.zipIdx.filter fun (v, _) => v.isConstant == constant).map (·.2)
  positions false ++ positions true

def spaced (items : List String) : String := " ".intercalate items

/-- The first ten lines. The numbers of an array with several axes, which can not be registered, stand in a row as
those of one axis do. -/
def headLines (r : Registry α) (m : Memory α) : List String :=
  let ordered := r.layoutOrder.filterMap (r.vars[·]?)
  [streamMagic, toString streamVersion, typeFormat, toString r.terms.length,
    toString r.vars.length, toString (r.scalars + r.constants), Numeral.write r.constant,
    spaced (ordered.map fun v => toString v.userDimension),
    spaced (ordered.map fun v => if v.isConstant then "1" else "0"),
    spaced (ordered.flatMap fun v => (m.load v.storage).map Numeral.write)]

omit [Numeral α] in
def termLines (r : Registry α) (factory : Option (Factory α)) (b : Binding α) :
    Except (Fault α) (List String) := do
  if b.term.payload.toList.contains '\n' then throw (.severalLines b.term.kind.className)
  let name := match factory with
    | some factory => factory.nameOf b.term
    | none => b.term.kind.streamName
  return [name, toString b.positions.length,
    spaced (b.positions.map fun i => toString (r.layoutOrder.idxOf i)), b.term.payload]

def unlines (lines : List String) : String :=
  String.ofList (lines.flatMap fun line => line.toList ++ ['\n'])

def write (r : Registry α) (m : Memory α) (factory : Option (Factory α)) :
    Except (Fault α) String := do
  if r.vars.any (·.change.isSome) then throw .streamChanged
  let terms ← r.terms.mapM (r.termLines factory)
  return unlines (r.headLines m ++ terms.flatten)

end Registry

structure Reader (α : Type) where
  text : List Char
  memory : Memory α
  objective : Objective α

abbrev Reading (α : Type) := ExceptT (Fault α) (StateM (Reader α))

namespace Reading

variable {α : Type}

def refuse (wrong : Prop) [Decidable wrong] (fault : Fault α) : Reading α Unit :=
  if wrong then throw fault else return

def line (part : StreamPart) : Reading α String := do
  let reader ← get
  if reader.text.isEmpty then throw (.reading part)
  set { reader with text := (reader.text.dropWhile (· ≠ '\n')).drop 1 }
  return String.ofList (reader.text.takeWhile (· ≠ '\n'))

def integers (part : StreamPart) : Reading α (List Int) := do
  let text ← line part
  match (Text.words text.toList).mapM Decimal.integer? with
  | some values => return values
  | none => throw (.reading part)

def natural (part : StreamPart) : Reading α Nat := do
  match ← integers part with
  | [.ofNat n] => return n
  | _ => throw (.reading part)

def edit {β : Type} (e : Edit α β) : Reading α β := do
  let reader ← get
  let (result, objective) := e.run reader.memory reader.objective
  set { reader with objective }
  match result with
  | .ok value => return value
  | .error fault => throw fault

def view (whole : Handle) (start stop : Int) : Reading α Handle := do
  let reader ← get
  let (handle, memory) := reader.memory.view whole start stop
  set { reader with memory }
  return handle

def registerParts (whole : Handle) : (offset : Int) → List Int → Reading α (List Handle)
  | _, [] => return []
  | offset, d :: rest => do
      let handle ← view whole offset (offset + d)
      edit (Objective.addVariable handle d none)
      return handle :: (← registerParts whole (offset + d) rest)

def term (factory : Factory α) (handles : List Handle) : Reading α Unit := do
  let name ← line .termName
  let arity ← natural .termArity
  let positions ← integers .termVariables
  refuse (positions.length ≠ arity ∨ positions.any fun p => p < 0 || handles.length ≤ p)
    (.termVariables name)
  let payload ← line .termPayload
  let t ← factory.create name payload
  edit (Objective.addTerm t (positions.filterMap fun p => handles[p.toNat]?))

def terms (factory : Factory α) (handles : List Handle) : Nat → Reading α Unit
  | 0 => return
  | count + 1 => do
      term factory handles
      terms factory handles count

variable [Numeral α]

def constant : Reading α α := do
  match Numeral.read? (← line .constant) with
  | some value => return value
  | none => throw (.reading .constant)

def point : Reading α (List α) := do
  let text ← line .point
  match (Text.words text.toList).mapM fun word => Numeral.read? (String.ofList word) with
  | some values => return values
  | none => throw (.reading .point)

def body (factory : Factory α) : Reading α (Handle × List Handle) := do
  refuse ((← line .header) ≠ streamMagic) .notStream
  let version ← natural .version
  refuse (version ≠ streamVersion) (.streamVersion version)
  refuse ((← line .typeFormat) ≠ typeFormat) .foreignFormat
  let numberOfTerms ← natural .numberOfTerms
  let numberOfVariables ← natural .numberOfVariables
  let numberOfScalars ← natural .numberOfScalars
  let constant ← constant
  let dimensions ← integers .dimensions
  let flags ← integers .constantFlags
  refuse (dimensions.length ≠ numberOfVariables ∨ flags.length ≠ numberOfVariables) .variableCount
  let total : Int := dimensions.foldl (· + ·) 0
  refuse (total ≠ numberOfScalars) .dimensionSum
  let values ← point
  refuse (values.length ≠ numberOfScalars) .scalarCount
  let (whole, memory) := (← get).memory.allocateVector values
  modify fun reader => { reader with memory }
  let handles ← registerParts whole 0 dimensions
  ((handles.zip flags).filter (·.2 ≠ 0)).forM fun (handle, _) =>
    edit (Objective.setConstant handle true)
  terms factory handles numberOfTerms
  modify fun reader => { reader with objective := { reader.objective with constant } }
  return (whole, handles)

variable [Scalar α]

omit [Numeral α] in
def clear : Reading α Unit :=
  modify fun reader => { reader with objective := reader.objective.clear }

/-- Replaces the objective by a stored one; it is left empty if that can not be read. -/
def objective (factory : Factory α) : Reading α (Handle × List Handle) := do
  clear
  tryCatch (body factory) fun fault => do
    clear
    throw fault

def run {β : Type} (step : Reading α β) (reader : Reader α) :
    Except (Fault α) β × Reader α :=
  StateT.run (ExceptT.run step) reader

end Reading

end Descent
