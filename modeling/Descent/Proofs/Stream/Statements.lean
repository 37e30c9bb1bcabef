import Mathlib
import Descent.Proofs.Stream.Parts

/-!
# What a text states

The first ten lines of a text state the head of an objective (`Head.Opens`), and four lines each a term
(`StatesTerm`). A reading takes what is stated (`Reading.run_body_of_opens`, `Reading.run_term_of_states`), and
refuses every text that does not state it (`Reading.ends_body`, `Reading.ends_term`). Whether variables and terms
can be registered as they are stated is another matter.
-/

namespace Descent

variable {α : Type}

open Text

namespace Text

inductive Starts : (text : List Char) → (lines : List String) → (rest : List Char) → Prop
  | nil (text : List Char) : Starts text [] text
  | cons {text behind rest : List Char} {line : String} {lines : List String}
      (first : FirstLine text line behind) (others : Starts behind lines rest) :
      Starts text (line :: lines) rest

theorem starts_lined (lines : List String) (whole : ∀ line ∈ lines, '\n' ∉ line.toList)
    (others : List String) (rest : List Char) :
    Starts (lined (lines ++ others) rest) lines (lined others rest) := by
  induction lines with
  | nil => exact .nil _
  | cons line lines ih =>
      obtain ⟨here, whole⟩ := List.forall_mem_cons.1 whole
      exact .cons (firstLine_lined here _ rest) (ih whole)

theorem Starts.length_le {text rest : List Char} {lines : List String} (starts : Starts text lines rest) :
    rest.length + lines.length ≤ text.length := by
  induction starts with
  | nil text => exact Nat.le_refl _
  | cons first _ ih =>
      have shorter := first.length_lt
      rw [List.length_cons]
      omega

end Text

structure Head (α : Type) where
  terms : Nat
  constant : α
  dimensions : List Int
  flags : List Int
  values : List α
  flags_length : flags.length = dimensions.length
  sum : dimensions.sum = values.length

inductive Head.Opens [Numeral α] (head : Head α) (text rest : List Char) : Prop
  | intro {version terms count scalars constant dimensions flags point : String}
      (lines : Starts text [streamMagic, version, typeFormat, terms, count, scalars, constant, dimensions,
        flags, point] rest)
      (version_eq : natural? version = some streamVersion)
      (terms_eq : natural? terms = some head.terms)
      (count_eq : natural? count = some head.dimensions.length)
      (scalars_eq : natural? scalars = some head.values.length)
      (constant_eq : Numeral.read? constant = some head.constant)
      (dimensions_eq : integers? dimensions = some head.dimensions)
      (flags_eq : integers? flags = some head.flags)
      (values_eq : numbers? point = some head.values)

inductive StatesTerm (factory : Factory α) (count : Nat) (text : List Char) (b : Binding α)
    (rest : List Char) : Prop
  | intro {name arity positions payload : String}
      (lines : Starts text [name, arity, positions, payload] rest)
      (arity_eq : natural? arity = some b.positions.length)
      (positions_eq : integers? positions = some (b.positions.map Nat.cast))
      (known : ∀ i ∈ b.positions, i < count)
      (create : factory.create name payload = .ok b.term)

inductive StatesTerms (factory : Factory α) (count : Nat) :
    (text : List Char) → List (Binding α) → (rest : List Char) → Prop
  | nil (text : List Char) : StatesTerms factory count text [] text
  | cons {text behind rest : List Char} {b : Binding α} {bs : List (Binding α)}
      (first : StatesTerm factory count text b behind) (others : StatesTerms factory count behind bs rest) :
      StatesTerms factory count text (b :: bs) rest

def Factory.Raises (factory : Factory α) (fault : Fault α) : Prop :=
  ∃ name cls payload, factory.find? name = some cls ∧ cls.restore payload = .error fault

theorem Factory.create_error {factory : Factory α} {name payload : String} {fault : Fault α}
    (failed : factory.create name payload = .error fault) :
    fault = .unknownTerm name ∨ factory.Raises fault := by
  unfold create at failed
  split at failed
  · rename_i cls found
    exact .inr ⟨name, cls, payload, found, failed⟩
  · cases failed
    exact .inl rfl

namespace Reading

variable {text rest : List Char} {m : Memory α} {g : Objective α} {factory : Factory α}

def Ends {β : Type} (step : Reading α β) (reader : Reader α) (gives : β → Reader α → Prop)
    (fails : Fault α → Prop) : Prop :=
  match run step reader with
  | (.ok b, reader') => gives b reader'
  | (.error fault, _) => fails fault

section

variable {β γ : Type} {step : Reading α β} {next : β → Reading α γ} {reader : Reader α}
  {gives : γ → Reader α → Prop} {fails : Fault α → Prop} {part : StreamPart}

theorem Ends.of_run_eq {step other : Reading α γ} {reader reader' : Reader α}
    (same : run step reader = run other reader') (ends : Ends other reader' gives fails) :
    Ends step reader gives fails := by
  rw [Ends, same]
  exact ends

theorem ends_of_ok {step : Reading α γ} {c : γ} {reader' : Reader α}
    (outcome : run step reader = (.ok c, reader')) (given : gives c reader') :
    Ends step reader gives fails := by
  rw [Ends, outcome]
  exact given

theorem ends_of_error {step : Reading α γ} {fault : Fault α} {reader' : Reader α}
    (outcome : run step reader = (.error fault, reader')) (failed : fails fault) :
    Ends step reader gives fails := by
  rw [Ends, outcome]
  exact failed

theorem Ends.bind {mid : β → Reader α → Prop} (first : Ends step reader mid fails)
    (others : ∀ b reader', mid b reader' → Ends (next b) reader' gives fails) :
    Ends (step >>= next) reader gives fails := by
  rcases outcome : run step reader with ⟨fault | b, reader'⟩ <;> rw [Ends, outcome] at first
  · exact ends_of_error (run_bind_error outcome) first
  · exact .of_run_eq (run_bind_ok outcome) (others b reader' first)

theorem Ends.mono {step : Reading α γ} {gives' : γ → Reader α → Prop} (ends : Ends step reader gives fails)
    (weaker : ∀ c reader', gives c reader' → gives' c reader') : Ends step reader gives' fails := by
  rcases outcome : run step reader with ⟨fault | c, reader'⟩ <;> rw [Ends, outcome] at ends
  · exact ends_of_error outcome ends
  · exact ends_of_ok outcome (weaker c reader' ends)

theorem ends_refuse {wrong : Prop} [Decidable wrong] {fault : Fault α} {next : Unit → Reading α γ}
    (refused : fails fault) (others : ¬wrong → Ends (next ()) reader gives fails) :
    Ends (refuse wrong fault >>= next) reader gives fails := by
  by_cases holds : wrong
  · exact ends_of_error (run_bind_error (run_refuse_error holds fault)) refused
  · exact .of_run_eq (run_bind_ok (run_refuse holds fault)) (others holds)

theorem ends_line {next : String → Reading α γ} (refused : fails (.reading part))
    (others : ∀ line behind, FirstLine text line behind → Ends (next line) ⟨behind, m, g⟩ gives fails) :
    Ends (line part >>= next) ⟨text, m, g⟩ gives fails := by
  by_cases empty : text = []
  · subst empty
    exact ends_of_error (run_bind_error run_line_nil) refused
  · obtain ⟨line, behind, first⟩ := exists_firstLine empty
    exact .of_run_eq (run_bind_ok (run_line first)) (others line behind first)

theorem ends_integers {next : List Int → Reading α γ} (refused : fails (.reading part))
    (others : ∀ line behind values, FirstLine text line behind → integers? line = some values →
      Ends (next values) ⟨behind, m, g⟩ gives fails) :
    Ends (integers part >>= next) ⟨text, m, g⟩ gives fails := by
  rw [integers, bind_assoc]
  refine ends_line refused fun line behind first => ?_
  cases stated : integers? line with
  | none =>
      rw [integers?] at stated
      simp only [stated]
      exact refused
  | some values =>
      have given := others line behind values first stated
      rw [integers?] at stated
      simp only [stated]
      exact given

theorem ends_natural {next : Nat → Reading α γ} (refused : fails (.reading part))
    (others : ∀ line behind n, FirstLine text line behind → natural? line = some n →
      Ends (next n) ⟨behind, m, g⟩ gives fails) :
    Ends (natural part >>= next) ⟨text, m, g⟩ gives fails := by
  rw [natural, bind_assoc]
  refine ends_integers refused fun line behind values first stated => ?_
  have given := fun n => others line behind n first
  unfold natural? at given
  rw [stated] at given
  split
  · rename_i n
    exact given n rfl
  · exact refused

variable [Numeral α]

theorem ends_constant {next : α → Reading α γ} (refused : fails (.reading .constant))
    (others : ∀ line behind a, FirstLine text line behind → Numeral.read? line = some a →
      Ends (next a) ⟨behind, m, g⟩ gives fails) :
    Ends (constant >>= next) ⟨text, m, g⟩ gives fails := by
  rw [constant, bind_assoc]
  refine ends_line refused fun line behind first => ?_
  cases stated : (Numeral.read? line : Option α) with
  | none => exact refused
  | some a => exact others line behind a first stated

theorem ends_point {next : List α → Reading α γ} (refused : fails (.reading .point))
    (others : ∀ line behind values, FirstLine text line behind → numbers? line = some values →
      Ends (next values) ⟨behind, m, g⟩ gives fails) :
    Ends (point >>= next) ⟨text, m, g⟩ gives fails := by
  rw [point, bind_assoc]
  refine ends_line refused fun line behind first => ?_
  cases stated : (numbers? line : Option (List α)) with
  | none =>
      rw [numbers?] at stated
      simp only [stated]
      exact refused
  | some values =>
      have given := others line behind values first stated
      rw [numbers?] at stated
      simp only [stated]
      exact given

end

def registerTerms (factory : Factory α) (head : Head α) (whole : Handle) (handles : List Handle) :
    Reading α (Handle × List Handle) := do
  terms factory handles head.terms
  modify fun reader => { reader with objective := { reader.objective with constant := head.constant } }
  return (whole, handles)

def register (factory : Factory α) (head : Head α) : Reading α (Handle × List Handle) := do
  let (whole, memory) := (← get).memory.allocateVector head.values
  modify fun reader => { reader with memory }
  let handles ← registerParts whole 0 head.dimensions
  ((handles.zip head.flags).filter (·.2 ≠ 0)).forM fun (handle, _) =>
    edit (Objective.setConstant handle true)
  registerTerms factory head whole handles

variable [Numeral α] {head : Head α}

theorem run_body_of_starts (factory : Factory α)
    {version terms count scalars constant dimensions flags point : String}
    (lines : Starts text [streamMagic, version, typeFormat, terms, count, scalars, constant, dimensions, flags,
      point] rest)
    {numberOfTerms numberOfScalars : Nat} {a : α} {ds fs : List Int} {values : List α}
    (version_eq : natural? version = some streamVersion) (terms_eq : natural? terms = some numberOfTerms)
    (count_eq : natural? count = some ds.length) (scalars_eq : natural? scalars = some numberOfScalars)
    (constant_eq : Numeral.read? constant = some a) (dimensions_eq : integers? dimensions = some ds)
    (flags_eq : integers? flags = some fs) (values_eq : numbers? point = some values)
    (flags_length : fs.length = ds.length) (total : ds.sum = numberOfScalars) :
    ∃ next, run (body factory) ⟨text, m, g⟩ =
        run (refuse (values.length ≠ numberOfScalars) .scalarCount >>= fun _ => next) ⟨rest, m, g⟩ ∧
      ∀ sum : ds.sum = values.length,
        next = register factory ⟨numberOfTerms, a, ds, fs, values, flags_length, sum⟩ := by
  obtain _ | ⟨first₁, _ | ⟨first₂, _ | ⟨first₃, _ | ⟨first₄, _ | ⟨first₅, _ | ⟨first₆, _ | ⟨first₇,
    _ | ⟨first₈, _ | ⟨first₉, _ | ⟨first₁₀, _ | _⟩⟩⟩⟩⟩⟩⟩⟩⟩⟩ := lines
  rw [List.sum_eq_foldl] at total
  rw [body, run_bind_ok (run_line first₁), run_bind_ok (run_refuse (by simp) _),
    run_bind_ok (run_natural first₂ version_eq), run_bind_ok (run_refuse (by simp) _),
    run_bind_ok (run_line first₃), run_bind_ok (run_refuse (by simp) _),
    run_bind_ok (run_natural first₄ terms_eq), run_bind_ok (run_natural first₅ count_eq),
    run_bind_ok (run_natural first₆ scalars_eq),
    run_bind_ok (run_constant first₇ constant_eq),
    run_bind_ok (run_integers first₈ dimensions_eq),
    run_bind_ok (run_integers first₉ flags_eq),
    run_bind_ok (run_refuse (by simp [flags_length]) _),
    run_bind_ok (run_refuse (not_not_intro total) _),
    run_bind_ok (run_point first₁₀ values_eq)]
  exact ⟨_, rfl, fun _ => rfl⟩

theorem run_body_of_opens (opens : head.Opens text rest) :
    run (body factory) ⟨text, m, g⟩ = run (register factory head) ⟨rest, m, g⟩ := by
  obtain ⟨lines, version_eq, terms_eq, count_eq, scalars_eq, constant_eq, dimensions_eq, flags_eq,
    values_eq⟩ := opens
  obtain ⟨next, taken, same⟩ := run_body_of_starts (m := m) (g := g) factory lines version_eq terms_eq
    count_eq scalars_eq constant_eq dimensions_eq flags_eq values_eq head.flags_length head.sum
  rw [taken, run_bind_ok (run_refuse (not_not_intro rfl) _), same head.sum]

theorem ends_body {gives : Handle × List Handle → Reader α → Prop} {fails : Fault α → Prop}
    (formats : ∀ fault : Fault α, fault.category = "StreamFormatError" → fails fault)
    (registers : ∀ (head : Head α) (rest : List Char), head.Opens text rest →
      Ends (register factory head) ⟨rest, m, g⟩ gives fails) :
    Ends (body factory) ⟨text, m, g⟩ gives fails := by
  rw [body]
  refine ends_line (formats _ rfl) fun magic _ first₁ => ends_refuse (formats _ rfl) fun magic_eq => ?_
  refine ends_natural (formats _ rfl) fun _ _ version first₂ version_eq =>
    ends_refuse (formats _ rfl) fun supported => ?_
  refine ends_line (formats _ rfl) fun format _ first₃ => ends_refuse (formats _ rfl) fun format_eq => ?_
  refine ends_natural (formats _ rfl) fun _ _ terms first₄ terms_eq => ?_
  refine ends_natural (formats _ rfl) fun _ _ count first₅ count_eq => ?_
  refine ends_natural (formats _ rfl) fun _ _ scalars first₆ scalars_eq => ?_
  refine ends_constant (formats _ rfl) fun _ _ constant first₇ constant_eq => ?_
  refine ends_integers (formats _ rfl) fun _ _ dimensions first₈ dimensions_eq => ?_
  refine ends_integers (formats _ rfl) fun _ _ flags first₉ flags_eq =>
    ends_refuse (formats _ rfl) fun counted => ends_refuse (formats _ rfl) fun summed => ?_
  refine ends_point (formats _ rfl) fun _ behind values first₁₀ values_eq =>
    ends_refuse (formats _ rfl) fun sized => ?_
  rw [Decidable.not_not] at magic_eq supported format_eq summed sized
  rw [not_or, Decidable.not_not, Decidable.not_not] at counted
  obtain ⟨rfl, flags_length⟩ := counted
  subst magic_eq format_eq supported sized
  rw [← List.sum_eq_foldl] at summed
  exact registers ⟨terms, constant, dimensions, flags, values, flags_length, summed⟩ behind
    ⟨.cons first₁ (.cons first₂ (.cons first₃ (.cons first₄ (.cons first₅ (.cons first₆ (.cons first₇
      (.cons first₈ (.cons first₉ (.cons first₁₀ (.nil _)))))))))),
      version_eq, terms_eq, count_eq, scalars_eq, constant_eq, dimensions_eq, flags_eq, values_eq⟩

omit [Numeral α]

variable {handles : List Handle}

def bindStated (handles : List Handle) (b : Binding α) : Reading α Unit :=
  edit (Objective.addTerm b.term (b.positions.filterMap (handles[·]?)))

theorem run_term_of_states {b : Binding α} (states : StatesTerm factory handles.length text b rest) :
    run (term factory handles) ⟨text, m, g⟩ = run (bindStated handles b) ⟨rest, m, g⟩ := by
  obtain ⟨lines, arity_eq, positions_eq, known, create⟩ := states
  obtain _ | ⟨first₁, _ | ⟨first₂, _ | ⟨first₃, _ | ⟨first₄, _ | _⟩⟩⟩⟩ := lines
  have right : ¬((b.positions.map (Nat.cast : Nat → Int)).length ≠ b.positions.length ∨
      ((b.positions.map (Nat.cast : Nat → Int)).any fun p => p < 0 || handles.length ≤ p) = true) := by
    rw [not_or, List.length_map, Decidable.not_not, Bool.not_eq_true, List.any_eq_false]
    refine ⟨rfl, fun p member => ?_⟩
    obtain ⟨i, inside, rfl⟩ := List.mem_map.1 member
    have bound := known i inside
    simp
    omega
  have taken : (b.positions.map (Nat.cast : Nat → Int)).filterMap (fun p => handles[p.toNat]?) =
      b.positions.filterMap (handles[·]?) := by
    rw [List.filterMap_map]
    congr 1
  rw [term, run_bind_ok (run_line first₁), run_bind_ok (run_natural first₂ arity_eq),
    run_bind_ok (run_integers first₃ positions_eq), run_bind_ok (run_refuse right _),
    run_bind_ok (run_line first₄), create, run_bind_ok (run_lift _), taken]
  rfl

theorem ends_term {γ : Type} {next : Unit → Reading α γ} {gives : γ → Reader α → Prop}
    {fails : Fault α → Prop}
    (formats : ∀ fault : Fault α, fault.category = "StreamFormatError" → fails fault)
    (raises : ∀ fault, factory.Raises fault → fails fault)
    (binds : ∀ (b : Binding α) (rest : List Char), StatesTerm factory handles.length text b rest →
      Ends (bindStated handles b >>= next) ⟨rest, m, g⟩ gives fails) :
    Ends (term factory handles >>= next) ⟨text, m, g⟩ gives fails := by
  simp only [term, bind_assoc]
  refine ends_line (formats _ rfl) fun name _ first₁ => ?_
  refine ends_natural (formats _ rfl) fun _ _ arity first₂ arity_eq => ?_
  refine ends_integers (formats _ rfl) fun _ _ positions first₃ positions_eq =>
    ends_refuse (formats _ rfl) fun fits => ?_
  refine ends_line (formats _ rfl) fun payload behind first₄ => ?_
  cases create : factory.create name payload with
  | error fault =>
      refine ends_of_error (run_bind_error (run_lift _)) ?_
      rcases Factory.create_error create with rfl | raised
      · exact formats _ rfl
      · exact raises fault raised
  | ok t =>
      rw [not_or, Decidable.not_not, Bool.not_eq_true, List.any_eq_false] at fits
      obtain ⟨length, known⟩ := fits
      -- positions in range are natural numbers
      have natural : (positions.map Int.toNat).map (Nat.cast : Nat → Int) = positions := by
        rw [List.map_map]
        refine (List.map_congr_left fun p member => ?_).trans (List.map_id _)
        have bounds := known p member
        simp at bounds
        simp
        omega
      have states : StatesTerm factory handles.length text ⟨t, positions.map Int.toNat⟩ behind := by
        refine ⟨.cons first₁ (.cons first₂ (.cons first₃ (.cons first₄ (.nil _)))), ?_, ?_, ?_, create⟩
        · rw [List.length_map, length]
          exact arity_eq
        · rw [natural]
          exact positions_eq
        · intro i member
          obtain ⟨p, inside, rfl⟩ := List.mem_map.1 member
          have bounds := known p inside
          simp at bounds
          omega
      have bound := binds _ behind states
      rw [bindStated, List.filterMap_map] at bound
      exact .of_run_eq (run_bind_ok (run_lift _)) bound

end Reading

end Descent
