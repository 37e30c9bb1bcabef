import Mathlib
import Descent.Proofs.Computation
import Descent.Proofs.Stream.Texts

namespace Descent

variable {α : Type}

class Numeral.Words (α : Type) [Numeral α] : Prop where
  isWord_write : ∀ a : α, Text.IsWord (Numeral.write a).toList

instance : Numeral.Words Float := ⟨Decimal.isWord_exact⟩

def Numeral.ReadBack [Numeral α] (a : α) : Prop := Numeral.read? (Numeral.write a) = some a

instance [Numeral α] [DecidableEq α] (a : α) : Decidable (Numeral.ReadBack a) :=
  inferInstanceAs (Decidable (_ = _))

namespace Text

def lined (lines : List String) (rest : List Char) : List Char :=
  lines.flatMap (fun line => line.toList ++ ['\n']) ++ rest

theorem lined_cons (line : String) (lines : List String) (rest : List Char) :
    lined (line :: lines) rest = line.toList ++ '\n' :: lined lines rest := by
  simp [lined]

theorem toList_unlines (lines : List String) (rest : List Char) :
    (Registry.unlines lines).toList ++ rest = lined lines rest := by
  rw [Registry.unlines, String.toList_ofList, lined]

theorem toList_spaced (items : List String) :
    (Registry.spaced items).toList = [' '].intercalate (items.map String.toList) := by
  rw [Registry.spaced, String.toList_intercalate]
  rfl

inductive FirstLine : (text : List Char) → (line : String) → (rest : List Char) → Prop
  | ended {line : String} (whole : '\n' ∉ line.toList) (rest : List Char) :
      FirstLine (line.toList ++ '\n' :: rest) line rest
  | last {line : String} (whole : '\n' ∉ line.toList) (nonempty : line.toList ≠ []) :
      FirstLine line.toList line []

theorem firstLine_lined {line : String} (whole : '\n' ∉ line.toList) (lines : List String)
    (rest : List Char) : FirstLine (lined (line :: lines) rest) line (lined lines rest) := by
  rw [lined_cons]
  exact .ended whole _

theorem exists_firstLine {text : List Char} (nonempty : text ≠ []) :
    ∃ line rest, FirstLine text line rest := by
  have whole : '\n' ∉ (String.ofList (text.takeWhile (· ≠ '\n'))).toList := by
    rw [String.toList_ofList]
    exact fun member => absurd (List.mem_takeWhile_imp member) (by decide)
  have split := List.takeWhile_append_dropWhile (p := (· ≠ '\n')) (l := text)
  cases behind : text.dropWhile (· ≠ '\n') with
  | nil =>
      rw [behind, List.append_nil] at split
      have first := FirstLine.last whole (by rwa [String.toList_ofList, split])
      rw [String.toList_ofList, split] at first
      exact ⟨_, _, first⟩
  | cons c rest =>
      have stop : c = '\n' := by
        have head := List.head?_dropWhile_not (· ≠ '\n') text
        rw [behind] at head
        simpa using head
      subst stop
      have first := FirstLine.ended whole rest
      rw [String.toList_ofList, ← behind, split] at first
      exact ⟨_, _, first⟩

theorem FirstLine.whole {text rest : List Char} {line : String} (first : FirstLine text line rest) :
    '\n' ∉ line.toList := by
  cases first with
  | ended whole _ => exact whole
  | last whole _ => exact whole

theorem FirstLine.length_lt {text rest : List Char} {line : String} (first : FirstLine text line rest) :
    rest.length < text.length := by
  cases first with
  | ended whole rest =>
      rw [List.length_append, List.length_cons]
      omega
  | last whole nonempty => exact List.length_pos_iff.2 nonempty

def integers? (line : String) : Option (List Int) := (words line.toList).mapM Decimal.integer?

def natural? (line : String) : Option Nat :=
  match integers? line with
  | some [.ofNat n] => some n
  | _ => none

def numbers? [Numeral α] (line : String) : Option (List α) :=
  (words line.toList).mapM fun word => Numeral.read? (String.ofList word)

theorem words_spaced {items : List String} (all : ∀ item ∈ items, IsWord item.toList) :
    words (Registry.spaced items).toList = items.map String.toList := by
  rw [toList_spaced, words_intercalate (List.forall_mem_map.2 all)]

theorem not_mem_spaced {items : List String} (all : ∀ item ∈ items, IsWord item.toList) :
    '\n' ∉ (Registry.spaced items).toList := by
  rw [toList_spaced]
  exact not_mem_intercalate (List.forall_mem_map.2 all)

theorem spaced_singleton (item : String) : Registry.spaced [item] = item := by
  apply String.toList_inj.1
  rw [toList_spaced, List.map_singleton, List.intercalate_singleton]

end Text

theorem mapM_eq_some {β γ δ : Type} {f : β → Option γ} {l : List δ} {word : δ → β} {value : δ → γ}
    (each : ∀ d ∈ l, f (word d) = some (value d)) : (l.map word).mapM f = some (l.map value) := by
  induction l with
  | nil => rfl
  | cons d rest ih =>
      obtain ⟨here, each⟩ := List.forall_mem_cons.1 each
      rw [List.map_cons, List.mapM_cons, here, ih each]
      rfl

namespace Text

theorem integers?_spaced (ns : List Nat) :
    integers? (Registry.spaced (ns.map toString)) = some (ns.map Nat.cast) := by
  have all : ∀ item ∈ ns.map toString, IsWord item.toList :=
    List.forall_mem_map.2 fun n _ => isWord_toString n
  rw [integers?, words_spaced all, List.map_map]
  exact mapM_eq_some fun n _ => Decimal.integer?_toString n

theorem natural?_toString (n : Nat) : natural? (toString n) = some n := by
  have stated : integers? (Registry.spaced ([n].map toString)) = some ([n].map Nat.cast) :=
    integers?_spaced [n]
  rw [List.map_singleton, spaced_singleton] at stated
  rw [natural?, stated]
  rfl

theorem not_mem_numerals (ns : List Nat) : '\n' ∉ (Registry.spaced (ns.map toString)).toList :=
  not_mem_spaced (List.forall_mem_map.2 fun n _ => isWord_toString n)

variable [Numeral α] [Numeral.Words α]

theorem not_mem_numbers (values : List α) :
    '\n' ∉ (Registry.spaced (values.map Numeral.write)).toList :=
  not_mem_spaced (List.forall_mem_map.2 fun a _ => Numeral.Words.isWord_write a)

theorem numbers?_spaced {values : List α} (back : ∀ a ∈ values, Numeral.ReadBack a) :
    numbers? (Registry.spaced (values.map Numeral.write)) = some values := by
  have all : ∀ item ∈ values.map Numeral.write, IsWord item.toList :=
    List.forall_mem_map.2 fun a _ => Numeral.Words.isWord_write a
  have each : (values.map (String.toList ∘ Numeral.write)).mapM (fun word =>
      Numeral.read? (String.ofList word)) = some (values.map id) := mapM_eq_some fun a member => by
    rw [Function.comp_apply, String.ofList_toList]
    exact back a member
  rw [numbers?, words_spaced all, List.map_map, each, List.map_id]

end Text

namespace Reading

open Text

section

variable {β γ : Type} {reader reader' : Reader α}

theorem run_bind_ok {x : Reading α β} {next : β → Reading α γ} {b : β}
    (first : run x reader = (.ok b, reader')) : run (x >>= next) reader = run (next b) reader' := by
  have ran := run_run_bind x next reader
  rw [show StateT.run (ExceptT.run x) reader = (.ok b, reader') from first] at ran
  exact ran

theorem run_bind_error {x : Reading α β} {next : β → Reading α γ} {fault : Fault α}
    (failed : run x reader = (.error fault, reader')) :
    run (x >>= next) reader = (.error fault, reader') := by
  have ran := run_run_bind x next reader
  rw [show StateT.run (ExceptT.run x) reader = (.error fault, reader') from failed] at ran
  exact ran

theorem run_pure (b : β) : run (pure b) reader = (.ok b, reader) := rfl

theorem run_get : run get reader = (.ok reader, reader) := rfl

theorem run_modify (change : Reader α → Reader α) :
    run (modify change) reader = (.ok ⟨⟩, change reader) := rfl

theorem run_lift (result : Except (Fault α) β) : run (liftM result) reader = (result, reader) :=
  run_run_lift result reader

theorem run_refuse {wrong : Prop} [Decidable wrong] (right : ¬wrong) (fault : Fault α) :
    run (refuse wrong fault) reader = (.ok (), reader) := by
  rw [refuse, if_neg right]
  rfl

theorem run_refuse_error {wrong : Prop} [Decidable wrong] (holds : wrong) (fault : Fault α) :
    run (refuse wrong fault) reader = (.error fault, reader) := by
  rw [refuse, if_pos holds]
  rfl

theorem run_edit (e : Edit α β) {b : β} {g : Objective α}
    (edited : e.run reader.memory reader.objective = (.ok b, g)) :
    run (edit e) reader = (.ok b, { reader with objective := g }) := by
  rw [edit, run_bind_ok run_get]
  simp only [edited]
  rfl

theorem run_edit_error (e : Edit α β) {fault : Fault α} {g : Objective α}
    (failed : e.run reader.memory reader.objective = (.error fault, g)) :
    run (edit e) reader = (.error fault, { reader with objective := g }) := by
  rw [edit, run_bind_ok run_get]
  simp only [failed]
  rfl

theorem run_edit_forM (reader : Reader α) (e : γ → Edit α PUnit) {l : List γ} {g : Objective α}
    (edited : (l.forM e).run reader.memory reader.objective = (.ok ⟨⟩, g)) :
    run (l.forM fun c => edit (e c)) reader = (.ok ⟨⟩, { reader with objective := g }) := by
  induction l generalizing reader with
  | nil =>
      cases edited
      rfl
  | cons c rest ih =>
      rw [List.forM, Edit.run_bind] at edited
      rcases first : (e c).run reader.memory reader.objective with ⟨fault | _, g₁⟩
      · rw [first] at edited
        cases edited
      · rw [first] at edited
        rw [List.forM, run_bind_ok (run_edit (e c) first)]
        exact ih _ edited

end

variable {m : Memory α} {g : Objective α} {lines : List String} {rest : List Char} {part : StreamPart}

theorem run_line {text behind : List Char} {line : String} (first : FirstLine text line behind) :
    run (Reading.line part) ⟨text, m, g⟩ = (.ok line, ⟨behind, m, g⟩) := by
  have inside {line : String} (whole : '\n' ∉ line.toList) :
      ∀ c ∈ line.toList, (c ≠ '\n' : Bool) = true := fun c member => by
    simpa using fun same : c = '\n' => whole (same ▸ member)
  have parts : text.isEmpty = false ∧ text.takeWhile (· ≠ '\n') = line.toList ∧
      (text.dropWhile (· ≠ '\n')).drop 1 = behind := by
    cases first with
    | ended whole rest =>
        rw [List.takeWhile_append_of_pos (inside whole), List.dropWhile_append_of_pos (inside whole)]
        simp
    | last whole nonempty =>
        rw [List.takeWhile_eq_self_iff.2 (inside whole), List.dropWhile_eq_nil_iff.2 (inside whole)]
        simpa using nonempty
  obtain ⟨some, front, back⟩ := parts
  rw [Reading.line, run_bind_ok run_get]
  simp only [some, Bool.false_eq_true, ↓reduceIte, front, back, String.ofList_toList]
  rfl

theorem run_line_nil : run (Reading.line part) ⟨[], m, g⟩ = (.error (.reading part), ⟨[], m, g⟩) := rfl

section

variable {text behind : List Char} {line : String} (first : FirstLine text line behind)

include first

theorem run_integers {values : List Int} (stated : integers? line = some values) :
    run (integers part) ⟨text, m, g⟩ = (.ok values, ⟨behind, m, g⟩) := by
  rw [integers, run_bind_ok (run_line first)]
  rw [integers?] at stated
  simp only [stated]
  rfl

theorem run_natural {n : Nat} (stated : natural? line = some n) :
    run (natural part) ⟨text, m, g⟩ = (.ok n, ⟨behind, m, g⟩) := by
  unfold natural? at stated
  split at stated
  · rename_i value listed
    cases stated
    rw [natural, run_bind_ok (run_integers first listed)]
    rfl
  · cases stated

variable [Numeral α]

theorem run_constant {a : α} (stated : Numeral.read? line = some a) :
    run constant ⟨text, m, g⟩ = (.ok a, ⟨behind, m, g⟩) := by
  rw [constant, run_bind_ok (run_line first), stated]
  rfl

theorem run_point {values : List α} (stated : numbers? line = some values) :
    run point ⟨text, m, g⟩ = (.ok values, ⟨behind, m, g⟩) := by
  rw [point, run_bind_ok (run_line first)]
  rw [numbers?] at stated
  simp only [stated]
  rfl

end

end Reading

end Descent
