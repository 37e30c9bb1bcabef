import Mathlib
import Descent.Objective.Stream

namespace Descent

namespace Text

structure IsWord (w : List Char) : Prop where
  nonempty : w ≠ []
  plain : ∀ c ∈ w, isSeparator c = false

theorem splitWords_append {w : List Char} (plain : ∀ c ∈ w, isSeparator c = false) (rest : List Char) :
    splitWords (w ++ rest) = (w ++ (splitWords rest).1, (splitWords rest).2) := by
  induction w with
  | nil => rfl
  | cons c w ih =>
      obtain ⟨here, plain⟩ := List.forall_mem_cons.1 plain
      simp only [List.cons_append, splitWords, ih plain, here, Bool.false_eq_true, ↓reduceIte]

theorem splitWords_intercalate {ws : List (List Char)} (all : ∀ w ∈ ws, IsWord w) :
    splitWords ([' '].intercalate ws) = (ws.headD [], ws.tail) := by
  induction ws with
  | nil => rfl
  | cons w rest ih =>
      obtain ⟨here, all⟩ := List.forall_mem_cons.1 all
      cases rest with
      | nil =>
          have whole := splitWords_append here.plain []
          rw [List.append_nil] at whole
          rw [List.intercalate_singleton, whole]
          simp [splitWords]
      | cons w' rest =>
          have separates : isSeparator ' ' = true := rfl
          have next : w'.isEmpty = false := by
            simpa using (all w' List.mem_cons_self).nonempty
          rw [List.intercalate_cons_cons, List.append_assoc, splitWords_append here.plain,
            List.singleton_append, splitWords, ih all]
          simp [separates, next]

theorem words_intercalate {ws : List (List Char)} (all : ∀ w ∈ ws, IsWord w) :
    words ([' '].intercalate ws) = ws := by
  rw [words, splitWords_intercalate all]
  cases ws with
  | nil => rfl
  | cons w rest =>
      have nonempty := (all w List.mem_cons_self).nonempty
      simp [nonempty]

theorem IsWord.whole {w : List Char} (word : IsWord w) : '\n' ∉ w := fun member =>
  absurd (word.plain _ member) (by decide)

theorem not_mem_intercalate {ws : List (List Char)} (all : ∀ w ∈ ws, IsWord w) :
    '\n' ∉ [' '].intercalate ws := by
  induction ws with
  | nil => exact List.not_mem_nil
  | cons w rest ih =>
      obtain ⟨here, all⟩ := List.forall_mem_cons.1 all
      cases rest with
      | nil =>
          rw [List.intercalate_singleton]
          exact here.whole
      | cons w' rest =>
          rw [List.intercalate_cons_cons, List.append_assoc, List.mem_append, List.mem_append, not_or,
            not_or]
          exact ⟨here.whole, by decide, ih all⟩

theorem exists_digitChar {c : Char} (digit : c.isDigit = true) : ∃ d < 10, c = Nat.digitChar d := by
  rw [Char.isDigit_iff_toNat] at digit
  have zero : '0'.toNat = 48 := rfl
  have nine : '9'.toNat = 57 := rfl
  have code (d : Nat) (below : d < 10) : (Nat.digitChar d).toNat = 48 + d := by
    revert d
    decide
  refine ⟨c.toNat - 48, by omega, Char.toNat_inj.1 ?_⟩
  rw [code _ (by omega)]
  omega

theorem isSeparator_of_isDigit {c : Char} (digit : c.isDigit = true) : isSeparator c = false := by
  obtain ⟨d, below, rfl⟩ := exists_digitChar digit
  revert d
  decide

theorem isWord_toDigits (n : Nat) : IsWord (Nat.toDigits 10 n) :=
  ⟨Nat.toDigits_ne_nil, fun _ member =>
    isSeparator_of_isDigit (Nat.isDigit_of_mem_toDigits (by decide) (by decide) member)⟩

theorem isWord_toString (n : Nat) : IsWord (toString n).toList := by
  rw [Nat.toString_eq_ofList_toDigits, String.toList_ofList]
  exact isWord_toDigits n

end Text

namespace Decimal

open Text

theorem plainDigit_of_isDigit {c : Char} (digit : c.isDigit = true) : plainDigit c = c := by
  obtain ⟨d, below, rfl⟩ := exists_digitChar digit
  revert d
  decide

theorem joinDigits?_of_isDigit {text : List Char} (digits : ∀ c ∈ text, c.isDigit = true)
    (afterDigit : Bool) : joinDigits? afterDigit text = some text := by
  induction text generalizing afterDigit with
  | nil => rfl
  | cons c rest ih =>
      obtain ⟨digit, digits⟩ := List.forall_mem_cons.1 digits
      have other : c ≠ '_' := fun same => absurd (same ▸ digit) (by decide)
      unfold joinDigits?
      split
      · rename_i same
        cases same
      · rename_i same
        exact absurd (List.cons.inj same).1 other
      · rename_i same
        exact absurd (List.cons.inj same).1 other
      · rename_i same
        obtain ⟨rfl, rfl⟩ := List.cons.inj same
        rw [ih digits, Option.map_some]

theorem trim_of_plain {text : List Char} (plain : ∀ c ∈ text, isBlank c = false) : trim text = text := by
  have whole (l : List Char) (plain : ∀ c ∈ l, isBlank c = false) : l.dropWhile isBlank = l := by
    cases l with
    | nil => rfl
    | cons c rest => simp [plain c List.mem_cons_self]
  rw [trim, whole text plain, whole text.reverse fun c member => plain c (List.mem_reverse.1 member),
    List.reverse_reverse]

theorem splitSign_of_isDigit {text : List Char} (digits : ∀ c ∈ text, c.isDigit = true) :
    splitSign text = (false, text) := by
  unfold splitSign
  split
  · exact absurd (digits '-' List.mem_cons_self) (by decide)
  · exact absurd (digits '+' List.mem_cons_self) (by decide)
  · rfl

theorem natural?_toDigits (n : Nat) : natural? (Nat.toDigits 10 n) = some n := by
  have digits : (Nat.toDigits 10 n).all Char.isDigit = true := List.all_eq_true.2 fun _ member =>
    Nat.isDigit_of_mem_toDigits (by decide) (by decide) member
  have nonempty : (Nat.toDigits 10 n).isEmpty = false := by simp [Nat.toDigits_ne_nil]
  have value := Nat.ofDigitChars_ten_toDigits (n := n)
  rw [Nat.ofDigitChars_eq_foldl] at value
  simp only [natural?, nonempty, digits, Bool.not_false, Bool.and_self, ↓reduceIte, value]

theorem integer?_toString (n : Nat) : integer? (toString n).toList = some (n : Int) := by
  have digits (c : Char) (member : c ∈ Nat.toDigits 10 n) : c.isDigit = true :=
    Nat.isDigit_of_mem_toDigits (by decide) (by decide) member
  have plain (c : Char) (member : c ∈ Nat.toDigits 10 n) : isBlank c = false := by
    have separator := isSeparator_of_isDigit (digits c member)
    rw [isSeparator, Bool.or_eq_false_iff] at separator
    exact separator.1
  have same : (Nat.toDigits 10 n).map plainDigit = Nat.toDigits 10 n := by
    rw [List.map_congr_left fun c member => plainDigit_of_isDigit (digits c member), List.map_id']
  rw [Nat.toString_eq_ofList_toDigits, String.toList_ofList, integer?, numeral?, trim_of_plain plain,
    same, joinDigits?_of_isDigit digits, Option.map_some, splitSign_of_isDigit digits]
  simp only [Option.bind_eq_bind, Option.bind_some, natural?_toDigits]
  rfl

def isNumeralChar (c : Char) : Bool := c.isDigit || ['+', '-', '.', 'e', 'i', 'n', 'f', 'a'].contains c

theorem isSeparator_of_isNumeralChar {c : Char} (numeral : isNumeralChar c = true) :
    isSeparator c = false := by
  rw [isNumeralChar, Bool.or_eq_true] at numeral
  rcases numeral with digit | other
  · exact isSeparator_of_isDigit digit
  · have all : (['+', '-', '.', 'e', 'i', 'n', 'f', 'a'].all fun c => !isSeparator c) = true := by
      decide
    simpa using List.all_eq_true.1 all c (List.contains_iff_mem.1 other)

def Plain (d : Decimal) : Prop := ∀ c ∈ d.digits, isNumeralChar c = true

theorem isNumeralChar_toDigits (n : Nat) : ∀ c ∈ Nat.toDigits 10 n, isNumeralChar c = true := by
  intro c member
  rw [isNumeralChar, Nat.isDigit_of_mem_toDigits (by decide) (by decide) member, Bool.true_or]

theorem plain_ofNat (n : Nat) (exponent : Int) : (ofNat n exponent).Plain := isNumeralChar_toDigits n

theorem Plain.trimmed {d : Decimal} (plain : d.Plain) : d.trimmed.Plain := by
  intro c member
  rw [Decimal.trimmed, List.mem_reverse] at member
  exact plain c (List.mem_reverse.1 ((List.dropWhile_sublist _).mem member))

theorem plain_significant (count : Nat) (v : Quotient) : (significant count v).Plain := fun _ member =>
  isNumeralChar_toDigits _ _ (List.mem_of_mem_take member)

theorem plain_shortest (significand : Nat) (exponent : Int) : (shortest significand exponent).Plain := by
  rw [shortest]
  cases found : (List.range 17).findSome? fun (k : Nat) =>
      ((Rounding.ofBinary significand exponent).onGrid?
        ((k + 1 : Int) - magnitude (.scaled significand 2 exponent))).map fun n =>
          (ofNat n (-((k + 1 : Int) - magnitude (.scaled significand 2 exponent)))).trimmed with
  | none => exact (plain_significant _ _).trimmed
  | some d =>
      obtain ⟨k, -, chosen⟩ := List.exists_of_findSome?_eq_some found
      obtain ⟨n, -, rfl⟩ := Option.map_eq_some_iff.1 chosen
      exact (plain_ofNat _ _).trimmed

structure IsNumeral (text : List Char) : Prop where
  nonempty : text ≠ []
  plain : ∀ c ∈ text, isNumeralChar c = true

theorem isNumeral_of_all {text : List Char} (all : (!text.isEmpty && text.all isNumeralChar) = true) :
    IsNumeral text := by
  rw [Bool.and_eq_true] at all
  exact ⟨by simpa using all.1, List.all_eq_true.1 all.2⟩

theorem IsNumeral.isWord {text : List Char} (numeral : IsNumeral text) : IsWord text :=
  ⟨numeral.nonempty, fun c member => isSeparator_of_isNumeralChar (numeral.plain c member)⟩

theorem isNumeral_positional {d : Decimal} (plain : d.Plain) (markWhole : Bool) :
    IsNumeral (positional markWhole d) := by
  have zeros (n : Nat) : ∀ c ∈ List.replicate n '0', isNumeralChar c = true := fun c member => by
    rw [List.eq_of_mem_replicate member]
    rfl
  unfold positional
  split
  · refine ⟨nofun, ?_⟩
    simp only [List.cons_append, List.forall_mem_cons, List.forall_mem_append]
    exact ⟨rfl, rfl, zeros _, plain⟩
  · rename_i positive
    have whole : ∀ c ∈ d.digits.take d.point.toNat ++
        List.replicate (d.point.toNat - (d.digits.take d.point.toNat).length) '0',
        isNumeralChar c = true := List.forall_mem_append.2
      ⟨fun c member => plain c (List.mem_of_mem_take member), zeros _⟩
    have long : d.digits.take d.point.toNat ++
        List.replicate (d.point.toNat - (d.digits.take d.point.toNat).length) '0' ≠ [] := by
      intro none
      have size := congrArg List.length none
      simp only [List.length_append, List.length_replicate, List.length_nil] at size
      omega
    simp only
    split
    · refine ⟨fun none => long (List.append_eq_nil_iff.1 none).1, List.forall_mem_append.2 ⟨whole, ?_⟩⟩
      split
      · exact List.forall_mem_cons.2 ⟨rfl, List.forall_mem_singleton.2 rfl⟩
      · nofun
    · refine ⟨fun none => long (List.append_eq_nil_iff.1 none).1, List.forall_mem_append.2 ⟨whole, ?_⟩⟩
      rw [List.forall_mem_cons]
      exact ⟨rfl, fun c member => plain c (List.mem_of_mem_drop member)⟩

theorem isNumeral_scientific {d : Decimal} (plain : d.Plain) : IsNumeral (scientific d) := by
  have exponent : ∀ c ∈ exponentText (d.point - 1), isNumeralChar c = true := by
    unfold exponentText
    rw [List.forall_mem_cons]
    constructor
    · split <;> rfl
    · split
      · exact List.forall_mem_cons.2 ⟨rfl, isNumeralChar_toDigits _⟩
      · exact isNumeralChar_toDigits _
  unfold scientific
  cases digits : d.digits with
  | nil => exact ⟨nofun, List.forall_mem_singleton.2 rfl⟩
  | cons first rest =>
      rw [Plain, digits, List.forall_mem_cons] at plain
      refine ⟨nofun, ?_⟩
      simp only [List.cons_append, List.forall_mem_cons, List.forall_mem_append]
      refine ⟨plain.1, ?_, rfl, exponent⟩
      split
      · nofun
      · exact List.forall_mem_cons.2 ⟨rfl, plain.2⟩

theorem isNumeral_write (layout : Layout) {d : Decimal} (plain : d.Plain) : IsNumeral (layout.write d) := by
  unfold Layout.write
  split
  · exact isNumeral_positional plain _
  · exact isNumeral_scientific plain

theorem isWord_exact (x : Float) : IsWord (exact x).toList := by
  have sign (negative : Bool) {text : List Char} (numeral : IsNumeral text) :
      IsWord (String.ofList (if negative then '-' :: text else text)).toList := by
    rw [String.toList_ofList]
    cases negative with
    | false => exact numeral.isWord
    | true => exact IsNumeral.isWord ⟨nofun, List.forall_mem_cons.2 ⟨rfl, numeral.plain⟩⟩
  unfold exact signed
  cases Binary64.ofFloat x with
  | nan => exact (isNumeral_of_all (by decide)).isWord
  | infinite negative => exact sign negative (isNumeral_of_all (by decide))
  | finite negative significand exponent =>
      cases significand with
      | zero => exact sign negative (isNumeral_of_all (by decide))
      | succ m => exact sign negative (isNumeral_write _ (plain_shortest _ _))

end Decimal

end Descent
