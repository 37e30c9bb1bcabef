import Mathlib
import Descent.Proofs.Evaluation.Hessians
import Descent.Proofs.Registry.Hold

/-!
# Restrictions

Where a free variable is held constant at the value that a point gives it, an objective is restricted to the
other free scalars: the value stays, the gradient loses the part of the variable and a dense Hessian its rows
and columns (`Reachable.ask_held_eq_without`). Nothing is assumed of the arithmetic, since every scalar that stays free
has the same summands in the same order.
-/

namespace Descent

variable {α : Type}

/-! ## Entries of parts -/

namespace Variable

variable {u v w : Variable α} {β : Type}

theorem entryAt_held {values : List β} (size : values.length = u.solverDimension) (s : Nat) :
    entryAt u.globalIndex values (u.skip s) = none := by
  have outside := u.skip_outside s
  exact entryAt_eq_none fun above => by omega

theorem entryAt_moved {index : Nat} (moved : ∀ c < v.solverDimension, u.skip (index + c) = v.globalIndex + c)
    {values : List β} (size : values.length = v.solverDimension) (s : Nat) :
    entryAt v.globalIndex values (u.skip s) = entryAt index values s := by
  by_cases inside : index ≤ s ∧ s - index < v.solverDimension
  · have here := moved (s - index) inside.2
    rw [Nat.add_sub_cancel' inside.1] at here
    rw [entryAt, entryAt, if_pos inside.1, if_pos (by omega), here, Nat.add_sub_cancel_left]
  · have beyond : entryAt index values s = none := entryAt_eq_none fun above => by omega
    rw [beyond]
    refine entryAt_eq_none fun above => Nat.le_of_not_lt fun below => inside ?_
    have there := moved (u.skip s - v.globalIndex) (by omega)
    rw [Nat.add_sub_cancel' above, skip_inj] at there
    omega

end Variable

namespace Registry

open Variable

/-! ## Points -/

section

variable {u v w : Variable α} {x : List α} {m : Memory α}

theorem solverPart_without (restricts : u.Restricts v w) (free : w.isConstant = false) :
    solverPart w (u.without x) = solverPart v x := by
  cases restricts with
  | held index => cases free
  | constant constant index => exact absurd (constant.symm.trans free) (by decide)
  | free _ index moved =>
      apply List.ext_getElem?
      intro c
      simp only [solverPart]
      by_cases inside : c < v.solverDimension
      · rw [List.getElem?_take_of_lt inside, List.getElem?_take_of_lt inside, List.getElem?_drop,
          List.getElem?_drop, getElem?_without, moved c inside]
      · rw [List.getElem?_eq_none, List.getElem?_eq_none] <;>
          · rw [List.length_take]
            omega

theorem userPart_congr (fits : v.Fits) {index : Nat} {y : List α}
    (same : solverPart { v with globalIndex := index } y = solverPart v x) :
    userPart { v with globalIndex := index } y = userPart v x := by
  simp only [userPart]
  cases change : v.change with
  | none =>
      rw [← fits.unchanged change]
      exact congrArg Except.ok same
  | some c => exact congrArg c.toUser same

theorem localValue_without (restricts : u.Restricts v w) (fits : v.Fits) (free : u.isConstant = false)
    (held : userPart u x = .ok (m.load u.storage)) :
    localValue m (u.without x) w = localValue m x v := by
  cases restricts with
  | held index =>
      rw [localValue, localValue, if_pos rfl, if_neg (by simp [free]), held]
      rfl
  | constant constant index =>
      rw [localValue, localValue, if_pos constant, if_pos constant]
  | free free index moved =>
      have parts := solverPart_without (x := x) (.free free index moved) free
      rw [localValue, localValue, if_neg (by simp [free]), if_neg (by simp [free]),
        userPart_congr fits parts]

theorem Restricts.pointLocals_eq {r s : Registry α} (restricts : r.Restricts s u)
    (held : userPart u x = .ok (m.load u.storage)) :
    s.pointLocals m (some (u.without x)) = r.pointLocals m (some x) := by
  have vars := restricts.vars
  have fits := restricts.fits
  simp only [pointLocals]
  generalize r.vars = vs at vars fits ⊢
  generalize s.vars = ws at vars ⊢
  induction vars with
  | nil => rfl
  | cons here _ ih =>
      obtain ⟨first, fits⟩ := List.forall_mem_cons.1 fits
      rw [List.mapM_cons, List.mapM_cons, localValue_without here first restricts.free held, ih fits]

theorem Restricts.arguments {r s : Registry α} (restricts : r.Restricts s u) (b : Binding α) :
    List.Forall₂ u.Restricts (r.arguments b) (s.arguments b) := by
  rw [Registry.arguments, Registry.arguments]
  generalize b.positions = positions
  induction positions with
  | nil => exact .nil
  | cons i rest ih =>
      by_cases inside : i < r.vars.length
      · have inside' : i < s.vars.length := restricts.vars.length_eq ▸ inside
        rw [List.filterMap_cons_some (List.getElem?_eq_getElem inside),
          List.filterMap_cons_some (List.getElem?_eq_getElem inside')]
        exact .cons ((List.forall₂_iff_get.1 restricts.vars).2 i inside inside') ih
      · have outside' : ¬i < s.vars.length := restricts.vars.length_eq ▸ inside
        rwa [List.filterMap_cons_none (List.getElem?_eq_none (by omega)),
          List.filterMap_cons_none (List.getElem?_eq_none (by omega))]

end

/-! ## Gradients -/

section

variable [Scalar α] {r s : Registry α} {u v w : Variable α} {x : List α} {request : Request}
  {locals : List (List α)}

omit [Scalar α] in
theorem solverGradient_without (restricts : u.Restricts v w) (free : w.isConstant = false)
    (part : List α) : solverGradient (u.without x) w part = solverGradient x v part := by
  have parts := solverPart_without (x := x) restricts free
  cases restricts with
  | held index => cases free
  | constant constant index => exact absurd (constant.symm.trans free) (by decide)
  | free _ index moved => simp only [solverGradient, parts]

abbrev Agree (u : Variable α) (n : Nat) (gradient gradient' : List α) : Prop :=
  ∀ s < n, gradient'[s]? = gradient[u.skip s]?

/-- How sums restrict: where the first one gives a value, so does the second one, with the same gradient in
the scalars that stay free. Unless the variable is changed, they also fail with the same fault. -/
structure Cut (u : Variable α) (n : Nat) {β : Type} (sum sum' : Except (Fault α) β × List α) : Prop where
  value : ∀ b, sum.1 = .ok b → sum'.1 = .ok b ∧ Agree u n sum.2 sum'.2
  plain : u.change = none → sum'.1 = sum.1

omit [Scalar α] in
theorem cut_error {n : Nat} {β : Type} {fault : Fault α} {gradient : List α}
    {sum' : Except (Fault α) β × List α} (plain : u.change = none → sum'.1 = .error fault) :
    Cut u n (.error fault, gradient) sum' :=
  ⟨fun _ ok => (by cases ok), plain⟩

structure PartCut (u : Variable α) (p p' : Variable α × List α) : Prop where
  restricts : u.Restricts p.1 p'.1
  part : p'.2 = p.2
  fits : p.1.Fits
  size : p.2.length = p.1.userDimension

theorem cut_addGradients {n : Nat} (free : u.isConstant = false)
    {parts parts' : List (Variable α × List α)} (cut : List.Forall₂ (PartCut u) parts parts')
    {gradient gradient' : List α} (same : Agree u n gradient gradient') :
    Cut u n (addGradients x parts gradient) (addGradients (u.without x) parts' gradient') := by
  induction cut generalizing gradient gradient' with
  | nil => exact ⟨fun b ok => ⟨ok, same⟩, fun _ => rfl⟩
  | @cons p p' rest rest' here _ ih =>
      obtain ⟨v, part⟩ := p
      obtain ⟨w, part'⟩ := p'
      obtain ⟨(restricts : u.Restricts v w), (same_part : part' = part), fits, size⟩ := here
      subst same_part
      have carried := solverGradient_without (x := x) restricts
      rw [addGradients, addGradients]
      cases restricts with
      | held index =>
          rw [if_neg (by simp [free]), if_pos rfl]
          cases pulled : solverGradient x u part' with
          | error fault =>
              refine cut_error fun plain => ?_
              simp only [solverGradient, plain] at pulled
              cases pulled
          | ok values =>
              refine ih fun s inside => ?_
              rw [same s inside, getElem?_addAt,
                entryAt_held (length_of_solverGradient fits size pulled)]
              simp
      | constant constant index =>
          rw [if_pos constant, if_pos constant]
          exact ih same
      | free free index moved =>
          rw [if_neg (by simp [free]), if_neg (by simp [free]), carried free]
          cases pulled : solverGradient x v part' with
          | error fault => exact cut_error fun _ => rfl
          | ok values =>
              refine ih fun s inside => ?_
              rw [getElem?_addAt, getElem?_addAt, same s inside,
                entryAt_moved moved (length_of_solverGradient fits size pulled)]

omit [Scalar α] in
theorem Restricts.partCut_reported (restricts : r.Restricts s u) (b : Binding α)
    (filled : Derivatives α) :
    List.Forall₂ (PartCut u) (r.reported b filled) (s.reported b filled) := by
  have arguments := restricts.arguments b
  refine List.forall₂_iff_get.2 ⟨by simp [reported, arguments.length_eq], fun k inside inside' => ?_⟩
  simp only [reported, List.length_mapIdx] at inside inside'
  have here := (List.forall₂_iff_get.1 arguments).2 k inside inside'
  have same : (s.arguments b)[k].userDimension = (r.arguments b)[k].userDimension :=
    here.userDimension_eq
  simp only [reported, List.get_eq_getElem, List.getElem_mapIdx]
  exact ⟨here, by rw [same], restricts.fits _ (mem_vars (List.getElem_mem inside)), by simp⟩

theorem Restricts.cut_termSum (restricts : r.Restricts s u) {n : Nat} (b : Binding α)
    {gradient gradient' : List α} (same : Agree u n gradient gradient') :
    Cut u n (r.termSum request locals x b gradient)
      (s.termSum request locals (u.without x) b gradient') := by
  rw [termSum, termSum]
  rcases jet request locals b with ⟨fault | value, filled⟩
  · exact cut_error fun _ => rfl
  · have added := cut_addGradients (x := x) restricts.free (restricts.partCut_reported b filled) same
    simp only
    refine ⟨fun a ok => ?_, fun plain => by rw [added.plain plain]⟩
    cases first : (addGradients x (r.reported b filled) gradient).1 with
    | error fault =>
        rw [first] at ok
        cases ok
    | ok done =>
        obtain ⟨second, entries⟩ := added.value done first
        rw [first] at ok
        exact ⟨by rw [second, ok], entries⟩

theorem Restricts.cut_chunkSum (restricts : r.Restricts s u) {n : Nat} (bs : List (Binding α)) (total : α)
    {gradient gradient' : List α} (same : Agree u n gradient gradient') :
    Cut u n (r.chunkSum request locals x bs total gradient)
      (s.chunkSum request locals (u.without x) bs total gradient') := by
  induction bs generalizing total gradient gradient' with
  | nil => exact ⟨fun b ok => ⟨ok, same⟩, fun _ => rfl⟩
  | cons b rest ih =>
      have here : Cut u n (r.termSum request locals x b gradient)
          (s.termSum request locals (u.without x) b gradient') := restricts.cut_termSum b same
      rw [chunkSum, chunkSum]
      rcases first : r.termSum request locals x b gradient with ⟨fault | value, g⟩ <;>
        rcases second : s.termSum request locals (u.without x) b gradient' with ⟨fault' | value', g'⟩ <;>
        rw [first, second] at here
      · exact cut_error fun plain => here.plain plain
      · exact cut_error fun plain => by cases here.plain plain
      · cases (here.value value rfl).1
      · obtain ⟨agree, entries⟩ := here.value value rfl
        cases agree
        exact ih (total + value) entries

theorem Restricts.cut_workerSums (restricts : r.Restricts s u) :
    List.Forall₂ (Cut u s.scalars) (r.workerSums request locals x)
      (s.workerSums request locals (u.without x)) := by
  have chunks : s.chunks = r.chunks := by
    rw [chunks, chunks, restricts.threads, restricts.terms]
  rw [workerSums, workerSums, chunks, List.forall₂_map_left_iff, List.forall₂_map_right_iff,
    List.forall₂_same]
  intro chunk _
  rw [workerSum, workerSum, restricts.terms, restricts.size]
  refine restricts.cut_chunkSum _ _ fun i inside => ?_
  have last := restricts.last
  have inside' := (skip_lt_iff last restricts.scalars).2 inside
  have total := restricts.scalars
  simp only [Buffer.zeros]
  rw [List.getElem?_replicate, List.getElem?_replicate, if_pos (by omega), if_pos (by omega)]

omit [Scalar α] in
theorem cut_mapM {n : Nat} {sums sums' : List (Except (Fault α) α × List α)}
    (cut : List.Forall₂ (Cut u n) sums sums') :
    (∀ values, (sums.map (·.1)).mapM id = .ok values → (sums'.map (·.1)).mapM id = .ok values ∧
      List.Forall₂ (Agree u n) (sums.map (·.2)) (sums'.map (·.2))) ∧
    (u.change = none → (sums'.map (·.1)).mapM id = (sums.map (·.1)).mapM id) := by
  induction cut with
  | nil => exact ⟨fun values ok => ⟨ok, .nil⟩, fun _ => rfl⟩
  | @cons sum sum' rest rest' here _ ih =>
      simp only [List.map_cons, List.mapM_cons, id_eq]
      refine ⟨fun values ok => ?_, fun plain => by rw [here.plain plain, ih.2 plain]⟩
      obtain ⟨value, first, ok⟩ := bind_eq_ok.1 ok
      obtain ⟨values, others, ok⟩ := bind_eq_ok.1 ok
      obtain ⟨first', agree⟩ := here.value value first
      obtain ⟨others', all⟩ := ih.1 values others
      exact ⟨by rw [first', others', ok_bind, ok_bind, ok], .cons agree all⟩

theorem Restricts.toList_totalGradient (restricts : r.Restricts s u) {gradients gradients' : List (List α)}
    (agree : List.Forall₂ (Agree u s.scalars) gradients gradients') :
    (s.totalGradient gradients').toList = u.without (r.totalGradient gradients).toList := by
  apply List.ext_getElem?
  intro i
  have inside := skip_lt_iff (s := i) restricts.last restricts.scalars
  rw [getElem?_without, totalGradient, totalGradient, Vector.toList_ofFn, Vector.toList_ofFn,
    List.getElem?_ofFn, List.getElem?_ofFn]
  by_cases free : i < s.scalars
  · rw [dif_pos free, dif_pos (inside.2 free), Option.some_inj]
    suffices general : ∀ start, gradients'.foldl (fun sum g => sum + g.getD i 0) start =
        gradients.foldl (fun sum g => sum + g.getD (u.skip i) 0) start from general 0
    induction agree with
    | nil => exact fun start => rfl
    | cons here _ ih =>
        intro start
        rw [List.foldl_cons, List.foldl_cons, ih, List.getD_eq_getElem?_getD, here i free,
          List.getD_eq_getElem?_getD]
  · rw [dif_neg free, dif_neg fun there => free (inside.1 there)]

theorem Restricts.sums_without (restricts : r.Restricts s u) (request : Request)
    (locals : List (List α)) (x : List α) :
    (∀ values, ((r.workerSums request locals x).map (·.1)).mapM id = .ok values →
      ((s.workerSums request locals (u.without x)).map (·.1)).mapM id = .ok values ∧
      (s.totalGradient ((s.workerSums request locals (u.without x)).map (·.2))).toList =
        u.without (r.totalGradient ((r.workerSums request locals x).map (·.2))).toList) ∧
    (u.change = none → ((s.workerSums request locals (u.without x)).map (·.1)).mapM id =
      ((r.workerSums request locals x).map (·.1)).mapM id) := by
  obtain ⟨values, plain⟩ := cut_mapM restricts.cut_workerSums
  refine ⟨fun all summed => ?_, plain⟩
  obtain ⟨summed', agree⟩ := values all summed
  exact ⟨summed', restricts.toList_totalGradient agree⟩

end

end Registry

/-! ## Dense Hessians -/

namespace Dense

variable [Scalar α] {m n n' : Nat} {u v w : Variable α}

def cell? (a : Dense α m n) (i j : Nat) : Option α := a[i]?.bind (·[j]?)

omit [Scalar α] in
theorem cell?_ofFn (entry : Fin m → Fin n → α) (i j : Nat) : (ofFn entry).cell? i j =
    if inside : i < m ∧ j < n then some (entry ⟨i, inside.1⟩ ⟨j, inside.2⟩) else none := by
  rw [cell?, ofFn, Vector.getElem?_ofFn]
  by_cases row : i < m
  · by_cases column : j < n <;> simp [row, column]
  · simp [row]

omit [Scalar α] in
theorem cell?_eq (a : Dense α m n) (i j : Nat) : a.cell? i j =
    if inside : i < m ∧ j < n then some (a.get ⟨i, inside.1⟩ ⟨j, inside.2⟩) else none := by
  by_cases row : i < m
  · by_cases column : j < n <;> simp [cell?, get, Vec.get_eq_getElem, row, column]
  · simp [cell?, row]

theorem cell?_addBlock (a : Dense α m n) (top left : Nat) (block : List (List α)) (i j : Nat) :
    (a.addBlock top left block).cell? i j = (a.cell? i j).map fun e =>
      ((entryAt top block i).bind (entryAt left · j)).elim e (e + ·) := by
  rw [addBlock, cell?_ofFn, cell?_eq]
  by_cases inside : i < m ∧ j < n
  · rw [dif_pos inside, dif_pos inside, Option.map_some]
    congr 1
    by_cases outside : i < top ∨ j < left
    · rw [if_pos outside]
      rcases outside with above | before
      · simp [entryAt, Nat.not_le.2 above]
      · cases entryAt top block i <;> simp [entryAt, Nat.not_le.2 before]
    · rw [if_neg outside]
      have below : top ≤ i := by omega
      have behind : left ≤ j := by omega
      simp only [entryAt, below, behind, ↓reduceIte, Option.bind_eq_bind]
      cases block[i - top]?.bind (·[j - left]?) <;> rfl
  · rw [dif_neg inside, dif_neg inside, Option.map_none]

def Cut (u : Variable α) (h : Dense α n n) (h' : Dense α n' n') : Prop :=
  ∀ i j, h'.cell? i j = h.cell? (u.skip i) (u.skip j)

theorem Cut.held_row {h : Dense α n n} {h' : Dense α n' n'} (cut : Cut u h h') (left : Nat)
    {block : List (List α)} (size : block.length = u.solverDimension) :
    Cut u (h.addBlock u.globalIndex left block) h' := by
  intro i j
  rw [cell?_addBlock, Variable.entryAt_held size, cut i j]
  simp

theorem Cut.held_column {h : Dense α n n} {h' : Dense α n' n'} (cut : Cut u h h') (top : Nat)
    {block : List (List α)} (size : ∀ row ∈ block, row.length = u.solverDimension) :
    Cut u (h.addBlock top u.globalIndex block) h' := by
  intro i j
  have outside : (entryAt top block (u.skip i)).bind (entryAt u.globalIndex · (u.skip j)) = none := by
    exact Option.bind_eq_none_iff.2 fun row found => Variable.entryAt_held (size row (mem_of_entryAt found)) j
  rw [cell?_addBlock, outside, cut i j]
  simp

theorem Cut.moved {h : Dense α n n} {h' : Dense α n' n'} (cut : Cut u h h') {top left : Nat}
    (row : ∀ c < v.solverDimension, u.skip (top + c) = v.globalIndex + c)
    (column : ∀ c < w.solverDimension, u.skip (left + c) = w.globalIndex + c)
    {block : List (List α)} (size : block.length = v.solverDimension)
    (sizes : ∀ row ∈ block, row.length = w.solverDimension) :
    Cut u (h.addBlock v.globalIndex w.globalIndex block) (h'.addBlock top left block) := by
  intro i j
  have same : (entryAt v.globalIndex block (u.skip i)).bind (entryAt w.globalIndex · (u.skip j)) =
      (entryAt top block i).bind (entryAt left · j) := by
    rw [Variable.entryAt_moved row size]
    exact Option.bind_congr fun values found =>
      Variable.entryAt_moved column (sizes values (mem_of_entryAt found)) j
  rw [cell?_addBlock, cell?_addBlock, same, cut i j]

end Dense

namespace Registry

open Variable

variable [Scalar α] {r s : Registry α} {u : Variable α}

inductive Thins (u : Variable α) : List (Nat × Variable α) → List (Nat × Variable α) → Prop
  | nil : Thins u [] []
  | drop {l l' : List (Nat × Variable α)} (k : Nat) (others : Thins u l l') : Thins u ((k, u) :: l) l'
  | keep {l l' : List (Nat × Variable α)} (k : Nat) {v : Variable α} (index : Nat)
      (moved : ∀ c < v.solverDimension, u.skip (index + c) = v.globalIndex + c) (others : Thins u l l') :
      Thins u ((k, v) :: l) ((k, { v with globalIndex := index }) :: l')

omit [Scalar α] in
theorem Thins.foldl {β γ : Type} {R : β → γ → Prop} {l l' : List (Nat × Variable α)}
    (thins : Thins u l l') {f : β → Nat × Variable α → β} {f' : γ → Nat × Variable α → γ}
    (drop : ∀ k, (k, u) ∈ l → ∀ b c, R b c → R (f b (k, u)) c)
    (keep : ∀ k v index, (k, v) ∈ l →
      (∀ c < v.solverDimension, u.skip (index + c) = v.globalIndex + c) →
      ∀ b c, R b c → R (f b (k, v)) (f' c (k, { v with globalIndex := index })))
    {b : β} {c : γ} (start : R b c) : R (l.foldl f b) (l'.foldl f' c) := by
  induction thins generalizing b c with
  | nil => exact start
  | drop k _ ih =>
      exact ih (fun k member => drop k (List.mem_cons_of_mem _ member))
        (fun k v index member => keep k v index (List.mem_cons_of_mem _ member))
        (drop k List.mem_cons_self b c start)
  | keep k index moved _ ih =>
      exact ih (fun k member => drop k (List.mem_cons_of_mem _ member))
        (fun k v index member => keep k v index (List.mem_cons_of_mem _ member))
        (keep k _ index List.mem_cons_self moved b c start)

omit [Scalar α] in
theorem thins_of_restricts (free : u.isConstant = false) {vs ws : List (Variable α)}
    (arguments : List.Forall₂ u.Restricts vs ws) (k : Nat) : Thins u
      (((vs.zipIdx k).filter fun (v, _) => !v.isConstant).map fun (v, k) => (k, v))
      (((ws.zipIdx k).filter fun (v, _) => !v.isConstant).map fun (v, k) => (k, v)) := by
  induction arguments generalizing k with
  | nil => exact .nil
  | cons here _ ih =>
      rw [List.zipIdx_cons, List.zipIdx_cons]
      cases here with
      | held index =>
          rw [List.filter_cons_of_pos (by simp [free]), List.filter_cons_of_neg (by simp)]
          exact .drop k (ih (k + 1))
      | constant constant index =>
          rw [List.filter_cons_of_neg (by simp [constant]), List.filter_cons_of_neg (by simp [constant])]
          exact ih (k + 1)
      | free free index moved =>
          rw [List.filter_cons_of_pos (by simp [free]), List.filter_cons_of_pos (by simp [free])]
          exact .keep k index moved (ih (k + 1))

omit [Scalar α] in
theorem Restricts.thins_freeArguments (restricts : r.Restricts s u) (b : Binding α) :
    Thins u (r.freeArguments b) (s.freeArguments b) :=
  thins_of_restricts restricts.free (restricts.arguments b) 0

omit [Scalar α] in
theorem block_size (fits : ∀ v ∈ r.vars, v.Fits)
    (plain : ∀ v ∈ r.vars, v.isConstant = false → v.change = none) {b : Binding α} {k l : Nat}
    {v w : Variable α} (first : (k, v) ∈ r.freeArguments b) (second : (l, w) ∈ r.freeArguments b)
    (filled : Derivatives α) :
    (block (r.reportedBlocks b filled) k l).length = v.solverDimension ∧
      ∀ row ∈ block (r.reportedBlocks b filled) k l, row.length = w.solverDimension := by
  have dimension {k : Nat} {v : Variable α} (argument : (k, v) ∈ r.freeArguments b) :
      v.solverDimension = v.userDimension := by
    obtain ⟨at_k, free⟩ := mem_freeArguments.1 argument
    have member := mem_vars (List.mem_of_getElem? at_k)
    exact (fits v member).unchanged (plain v member free)
  rw [block_reportedBlocks (mem_freeArguments.1 first).1 (mem_freeArguments.1 second).1]
  refine ⟨by simp [dimension first], fun row member => ?_⟩
  obtain ⟨i, -, rfl⟩ := List.mem_map.1 member
  simp [dimension second]

/-- The rows of the variable leave no trace in what stays free, and no columns of it are added to the rows of
other variables. -/
theorem Restricts.cut_addBlocks (restricts : r.Restricts s u)
    (plain : ∀ v ∈ r.vars, v.isConstant = false → v.change = none) (b : Binding α)
    (filled : Derivatives α) {n n' : Nat} {h : Dense α n n} {h' : Dense α n' n'}
    (cut : Dense.Cut u h h') :
    Dense.Cut u (r.addBlocks h b (r.reportedBlocks b filled))
      (s.addBlocks h' b (r.reportedBlocks b filled)) := by
  have thins := restricts.thins_freeArguments b
  have size {k l : Nat} {v w : Variable α} (first : (k, v) ∈ r.freeArguments b)
      (second : (l, w) ∈ r.freeArguments b) :=
    block_size restricts.fits plain first second filled
  simp only [addBlocks, freePairs, List.foldl_flatMap, List.foldl_map]
  refine thins.foldl (R := Dense.Cut u) (fun k first h h' cut => ?heldRow)
    (fun k v index first moved h h' cut => ?freeRow) cut
  case heldRow =>
    refine List.foldlRecOn (r.freeArguments b) _ (motive := fun h => Dense.Cut u h h') cut
      fun h cut a second => ?_
    exact cut.held_row a.2.globalIndex (size first second).1
  case freeRow =>
    refine thins.foldl (R := Dense.Cut u) (fun l second h h' cut => ?heldColumn)
      (fun l w index' second moved' h h' cut => ?freeColumn) cut
    case heldColumn => exact cut.held_column v.globalIndex (size first second).2
    case freeColumn => exact cut.moved moved moved' (size first second).1 (size first second).2

theorem Restricts.termBlocks_eq (restricts : r.Restricts s u) (locals : List (List α)) :
    s.termBlocks locals = r.termBlocks locals := by
  rw [termBlocks, termBlocks, restricts.terms]
  refine List.map_congr_left fun b _ => ?_
  have arguments := restricts.arguments b
  have dimensions : (s.arguments b).map Variable.userDimension =
      (r.arguments b).map Variable.userDimension := by
    generalize r.arguments b = vs at arguments ⊢
    generalize s.arguments b = ws at arguments ⊢
    induction arguments with
    | nil => rfl
    | cons here _ ih => rw [List.map_cons, List.map_cons, ih, here.userDimension_eq]
  rw [reportedBlocks, reportedBlocks, dimensions]

theorem Restricts.cut_denseHessian (restricts : r.Restricts s u)
    (plain : ∀ v ∈ r.vars, v.isConstant = false → v.change = none) (locals : List (List α)) :
    Dense.Cut u (r.denseHessian (r.termBlocks locals)) (s.denseHessian (s.termBlocks locals)) := by
  have zero : Dense.Cut u (.zero : Dense α r.scalars r.scalars) (.zero : Dense α s.scalars s.scalars) := by
    intro i j
    simp only [Dense.zero, Dense.cell?_ofFn, skip_lt_iff restricts.last restricts.scalars]
  rw [restricts.termBlocks_eq, denseHessian, denseHessian, restricts.terms, termBlocks,
    ← List.map_prod_left_eq_zip, List.foldl_map, List.foldl_map]
  generalize (Dense.zero : Dense α r.scalars r.scalars) = h at zero ⊢
  generalize (Dense.zero : Dense α s.scalars s.scalars) = h' at zero ⊢
  induction r.terms generalizing h h' with
  | nil => exact zero
  | cons b rest ih => exact ih _ _ (restricts.cut_addBlocks plain b _ zero)

omit [Scalar α] in
theorem toLists_of_cut {n n' : Nat} {h : Dense α n n} {h' : Dense α n' n'} (cut : Dense.Cut u h h')
    (last : u.globalIndex + u.solverDimension ≤ n) (size : n' + u.solverDimension = n) :
    h'.toLists = (u.without h.toLists).map u.without := by
  have inside (i : Nat) : u.skip i < n ↔ i < n' := skip_lt_iff last size
  apply List.ext_getElem?
  intro i
  rw [List.getElem?_map, getElem?_without, Dense.toLists, Dense.toLists, List.getElem?_map,
    List.getElem?_map, Vector.getElem?_toList, Vector.getElem?_toList]
  by_cases row : i < n'
  · have row' := (inside i).2 row
    rw [Vector.getElem?_eq_getElem row, Vector.getElem?_eq_getElem row', Option.map_some,
      Option.map_some, Option.map_some, Option.some_inj]
    apply List.ext_getElem?
    intro j
    have entries := cut i j
    rw [Dense.cell?, Dense.cell?, Vector.getElem?_eq_getElem row, Vector.getElem?_eq_getElem row',
      Option.bind_some, Option.bind_some] at entries
    rw [getElem?_without, Vector.getElem?_toList, Vector.getElem?_toList, entries]
  · rw [Vector.getElem?_eq_none (by omega), Vector.getElem?_eq_none]
    · rfl
    · have := inside i
      omega

/-! ## Evaluations -/

section

variable {m : Memory α} {x : List α} (restricts : r.Restricts s u) (size : x.length = r.scalars)
  (held : userPart u x = .ok (m.load u.storage))

include restricts size

omit [Scalar α] in
theorem Restricts.checkPoint_eq :
    r.checkPoint x = .ok () ∧ s.checkPoint (u.without x) = .ok () := by
  have last := restricts.last
  have scalars := restricts.scalars
  have length := length_without (u := u) (l := x) (by omega)
  exact ⟨by simp [checkPoint, size], by simp [checkPoint, show (u.without x).length = s.scalars by omega]⟩

omit size in
theorem Restricts.totalValue_eq : s.totalValue = r.totalValue := by
  funext values
  rw [totalValue, totalValue, restricts.constant]

include held

theorem Restricts.valueMeaning_eq :
    s.valueMeaning m (some (u.without x)) = r.valueMeaning m (some x) := by
  obtain ⟨here, there⟩ := restricts.checkPoint_eq size
  have chunks : s.chunks = r.chunks := by
    rw [chunks, chunks, restricts.threads, restricts.terms]
  simp only [valueMeaning, here, there, restricts.pointLocals_eq held, chunks, restricts.terms,
    restricts.totalValue_eq]

theorem Restricts.gradientMeaning_eq :
    (∀ a g, r.gradientMeaning m x = .ok (a, g) → ∃ g', s.gradientMeaning m (u.without x) = .ok (a, g') ∧
      g'.toList = u.without g.toList) ∧
    (u.change = none → ∀ fault, r.gradientMeaning m x = .error fault →
      s.gradientMeaning m (u.without x) = .error fault) := by
  obtain ⟨here, there⟩ := restricts.checkPoint_eq size
  simp only [gradientMeaning, here, there, restricts.pointLocals_eq held, ok_bind, restricts.totalValue_eq]
  cases r.pointLocals m (some x) with
  | error fault => exact ⟨fun a g ok => (by cases ok), fun _ other failed => (by cases failed; rfl)⟩
  | ok locals =>
      simp only [ok_bind]
      obtain ⟨values, plain⟩ := restricts.sums_without .gradient locals x
      cases summed : ((r.workerSums .gradient locals x).map (·.1)).mapM id with
      | error fault =>
          refine ⟨fun a g ok => (by cases ok), fun unchanged other failed => ?_⟩
          rw [plain unchanged, summed]
          cases failed
          rfl
      | ok all =>
          obtain ⟨summed', without⟩ := values all summed
          refine ⟨fun a g ok => ?_, fun _ other failed => (by cases failed)⟩
          cases ok
          exact ⟨_, by rw [summed']; rfl, without⟩

omit [Scalar α] size held in
theorem Restricts.checkHessian_eq (plain : ∀ v ∈ r.vars, v.isConstant = false → v.change = none) :
    s.checkHessian = r.checkHessian := by
  have unchanged (vs : List (Variable α)) (plain : ∀ v ∈ vs, v.isConstant = false → v.change = none) :
      (vs.any fun v => !v.isConstant && v.change.isSome) = false := by
    rw [List.any_eq_false]
    intro v member
    cases kind : v.isConstant <;> simp [kind, plain v member]
  have plain' : ∀ w ∈ s.vars, w.isConstant = false → w.change = none := by
    intro w member free
    obtain ⟨k, inside, rfl⟩ := List.mem_iff_getElem.1 member
    have inside' : k < r.vars.length := restricts.vars.length_eq ▸ inside
    have here := (List.forall₂_iff_get.1 restricts.vars).2 k inside' inside
    exact here.change_eq.trans (plain _ (List.getElem_mem inside') (here.free_of_free free))
  rw [checkHessian, checkHessian, unchanged _ plain, unchanged _ plain', restricts.hessianEnabled]

theorem Restricts.hessianMeaning_eq (plain : ∀ v ∈ r.vars, v.isConstant = false → v.change = none) :
    (∀ a g h, r.hessianMeaning m x false = .ok (a, g, h) → ∃ d g' d', h = .dense d ∧
      s.hessianMeaning m (u.without x) false = .ok (a, g', .dense d') ∧
      g'.toList = u.without g.toList ∧ d'.toLists = (u.without d.toLists).map u.without) ∧
    (∀ fault, r.hessianMeaning m x false = .error fault →
      s.hessianMeaning m (u.without x) false = .error fault) := by
  obtain ⟨here, there⟩ := restricts.checkPoint_eq size
  simp only [hessianMeaning, restricts.checkHessian_eq plain, here, there, restricts.pointLocals_eq held,
    ok_bind, restricts.totalValue_eq]
  cases r.checkHessian with
  | error fault => exact ⟨fun a g h ok => (by cases ok), fun other failed => (by cases failed; rfl)⟩
  | ok _ =>
  cases r.pointLocals m (some x) with
  | error fault => exact ⟨fun a g h ok => (by cases ok), fun other failed => (by cases failed; rfl)⟩
  | ok locals =>
  simp only [ok_bind]
  obtain ⟨values, same⟩ := restricts.sums_without .hessian locals x
  rw [same (plain u restricts.member restricts.free)]
  cases summed : ((r.workerSums .hessian locals x).map (·.1)).mapM id with
  | error fault => exact ⟨fun a g h ok => (by cases ok), fun other failed => (by cases failed; rfl)⟩
  | ok all =>
      obtain ⟨-, without⟩ := values all summed
      refine ⟨fun a g h ok => ?_, fun other failed => (by cases failed)⟩
      cases ok
      exact ⟨_, _, _, rfl, rfl, without,
        toLists_of_cut (restricts.cut_denseHessian plain locals) restricts.last restricts.scalars⟩

end

end Registry

namespace Objective

open Registry Variable

variable [Scalar α] {f : Objective α} {m : Memory α}

section

variable {f' : Objective α} {u : Variable α} {t : List α} (reached : Reachable f) (reached' : Reachable f')
  (restricts : f.toRegistry.Restricts f'.toRegistry u) (size : t.length = f.scalars)
  (held : userPart u t = .ok (m.load u.storage))

include reached' restricts size held

theorem ask_value_without :
    (f'.ask m (.value (some (u.without t)))).1 = Answer.number <$> f.valueMeaning m (some t) := by
  refine (reached'.ask_eq m (.value (some (u.without t)))).trans ?_
  exact congrArg (Answer.number <$> ·) (restricts.valueMeaning_eq size held)

include reached

theorem ask_gradient_without :
    (∀ a g, (f.ask m (.gradient t)).1 = .ok (.gradient a g) →
      ∃ g', (f'.ask m (.gradient (u.without t))).1 = .ok (.gradient a g') ∧ g'.toList = u.without g.toList) ∧
    (u.change = none → ∀ fault, (f.ask m (.gradient t)).1 = .error fault →
      (f'.ask m (.gradient (u.without t))).1 = .error fault) := by
  obtain ⟨values, faults⟩ := restricts.gradientMeaning_eq size held
  refine ⟨fun a g ok => ?_, fun plain fault failed => ?_⟩
  · obtain ⟨g', meant, without⟩ := values a g (reached.ask_gradient_iff.1 ok)
    exact ⟨g', reached'.ask_gradient_iff.2 meant, without⟩
  · exact reached'.ask_gradient_error_iff.2 (faults plain fault (reached.ask_gradient_error_iff.1 failed))

theorem ask_hessian_without (plain : ∀ v ∈ f.vars, v.isConstant = false → v.change = none) :
    (∀ a g hessian, (f.ask m (.hessian t false)).1 = .ok (.hessian a g hessian) → ∃ d g' d',
      hessian = .dense d ∧ (f'.ask m (.hessian (u.without t) false)).1 = .ok (.hessian a g' (.dense d')) ∧
      g'.toList = u.without g.toList ∧ d'.toLists = (u.without d.toLists).map u.without) ∧
    ∀ fault, (f.ask m (.hessian t false)).1 = .error fault →
      (f'.ask m (.hessian (u.without t) false)).1 = .error fault := by
  obtain ⟨values, faults⟩ := restricts.hessianMeaning_eq size held plain
  refine ⟨fun a g hessian ok => ?_, fun fault failed => ?_⟩
  · obtain ⟨d, g', d', dense, meant, without⟩ := values a g hessian (reached.ask_hessian_iff.1 ok)
    exact ⟨d, g', d', dense, reached'.ask_hessian_iff.2 meant, without⟩
  · exact reached'.ask_hessian_error_iff.2 (faults fault (reached.ask_hessian_error_iff.1 failed))

end

section

variable {h : Handle} {i : Nat} {u : Variable α} (reached : Reachable f) (found : f.find? h = some (i, u))

include reached found

theorem Reachable.run_hold (m : Memory α) :
    (Mutation.setConstant h true).edit.run m f = (.ok (), f.become (f.hold i u)) := by
  rw [Mutation.edit, run_setConstant reached.wellFormed, found]
  rfl

theorem Reachable.hold (m : Memory α) : Reachable (f.become (f.hold i u)) := by
  have step : Step f ((Mutation.setConstant h true).edit.run m f).2 := .mutate (c := .setConstant h true) trivial m
  rw [reached.run_hold found] at step
  exact reached.step step

theorem Reachable.run_release (free : u.isConstant = false) (m : Memory α) :
    (Mutation.setConstant h false).edit.run m (f.become (f.hold i u)) = (.ok (), f.invalidate) := by
  obtain ⟨v, found', released⟩ := reached.wellFormed.find?_hold found free
  -- once the variable is released, everything is derived anew, as before it was held
  have released' : (f.become (f.hold i u)).become ((f.hold i u).alter i { v with isConstant := false }) =
      f.invalidate := by
    rw [released]
    rfl
  have run := run_setConstant (reached.hold found m).wellFormed m h false
  rw [show (f.become (f.hold i u)).find? h = some (i, v) from found'] at run
  exact run.trans (congrArg (Prod.mk _) released')

end

/-- Holding a free variable constant at the value that a point gives it restricts the objective to the other
free variables, which keep their order: it has the same value there, the gradient without the part of the
variable and, unless free variables are changed, the dense Hessian without its rows and columns. Once the
variable is free again, everything is what it was. -/
theorem Reachable.ask_held_eq_without (reached : Reachable f) {h : Handle} {i : Nat} {u : Variable α}
    (found : f.find? h = some (i, u)) (free : u.isConstant = false) {t : List α}
    (size : t.length = f.scalars) (held : userPart u t = .ok (m.load h)) :
    ∃ f', (Mutation.setConstant h true).edit.run m f = (.ok (), f') ∧ f'.threads = f.threads ∧
      (u.without t).length = f'.scalars ∧
      (∀ (j : Nat) (v : Variable α), j ≠ i → f.vars[j]? = some v → v.isConstant = false →
        ∃ w, f'.vars[j]? = some w ∧ w.isConstant = false ∧
          solverPart w (u.without t) = solverPart v t) ∧
      (∃ value, (f.ask m (.value (some t))).1 = .number <$> value ∧
        (f'.ask m (.value (some (u.without t)))).1 = .number <$> value) ∧
      (∀ a g, (f.ask m (.gradient t)).1 = .ok (.gradient a g) →
        ∃ g', (f'.ask m (.gradient (u.without t))).1 = .ok (.gradient a g') ∧
          g'.toList = u.without g.toList) ∧
      (u.change = none → ∀ fault, (f.ask m (.gradient t)).1 = .error fault →
        (f'.ask m (.gradient (u.without t))).1 = .error fault) ∧
      ((∀ v ∈ f.vars, v.isConstant = false → v.change = none) →
        (∀ a g hessian, (f.ask m (.hessian t false)).1 = .ok (.hessian a g hessian) → ∃ d g' d',
          hessian = .dense d ∧
          (f'.ask m (.hessian (u.without t) false)).1 = .ok (.hessian a g' (.dense d')) ∧
          g'.toList = u.without g.toList ∧ d'.toLists = (u.without d.toLists).map u.without) ∧
        ∀ fault, (f.ask m (.hessian t false)).1 = .error fault →
          (f'.ask m (.hessian (u.without t) false)).1 = .error fault) ∧
      (∀ m', (Mutation.setConstant h false).edit.run m' f' = (.ok (), f.invalidate)) ∧
      f.invalidate.toRegistry = f.toRegistry ∧
      ∀ m' q, (f.invalidate.ask m' q).1 = (f.ask m' q).1 := by
  have wf := reached.wellFormed
  obtain ⟨at_i, rfl⟩ := wf.find?_eq_some.1 found
  have restricts := wf.restricts_hold at_i free
  have reached' := reached.hold found m
  obtain ⟨gradients, faults⟩ := ask_gradient_without reached reached' restricts size held
  refine ⟨_, reached.run_hold found m, rfl, ?_, fun j v other at_j free' => ?_,
    ⟨f.valueMeaning m (some t), reached.ask_eq m _, ask_value_without reached' restricts size held⟩,
    gradients, faults, fun plain => ask_hessian_without reached reached' restricts size held plain,
    reached.run_release found free, rfl, fun m' q => ?_⟩
  · have last := restricts.last
    have scalars := restricts.scalars
    have length := length_without (u := u) (l := t) (by omega)
    show (u.without t).length = (f.hold i u).scalars
    omega
  · obtain ⟨w, at_j', stays, moved⟩ := wf.free_hold at_i free other at_j free'
    exact ⟨w, at_j', stays, solverPart_without moved stays⟩
  · rw [reached.ask_eq, ask_eq_meaning (Workspace.coherent_invalidate _ _)]
    rfl

def twoAmongThree : Memory ℚ where
  objects := [.array .double [1] 0 0, .array .double [2] 1 0, .array .double [1] 2 0]
  blocks := [[0], [2, 3], [0]]

def fourfold : Objective ℚ :=
  ((Mutation.addTerm (.term (Sample.polynomial [1, 2, 1] [(1, [(0, 0), (1, 0), (1, 1), (2, 0)])]))
    [⟨0⟩, ⟨1⟩, ⟨2⟩]).edit.run twoAmongThree (ofThreads 2)).2

theorem reachable_fourfold : Reachable fourfold :=
  .step (.new (show new? 2 = .ok (ofThreads 2) from rfl))
    (.mutate (c := .addTerm (.term _) _) trivial twoAmongThree)

theorem fourfold_held :
    ∃ g f' g', (fourfold.ask twoAmongThree (.gradient [1, 2, 3, 4])).1 = .ok (.gradient 24 g) ∧
      g.toList = [24, 12, 8, 6] ∧
      (Mutation.setConstant ⟨1⟩ true).edit.run twoAmongThree fourfold = (.ok (), f') ∧
      (f'.ask twoAmongThree (.gradient [1, 4])).1 = .ok (.gradient 24 g') ∧ g'.toList = [24, 6] := by
  have computed : (fourfold.gradientMeaning twoAmongThree [1, 2, 3, 4]).toOption.map
      (fun result => (result.1, result.2.toList)) = some (24, [24, 12, 8, 6]) := by decide +kernel
  cases meant : fourfold.gradientMeaning twoAmongThree [1, 2, 3, 4] with
  | error fault =>
      rw [meant] at computed
      cases computed
  | ok result =>
      rw [meant] at computed
      obtain ⟨value, entries⟩ := Prod.mk.inj (Option.some.inj computed)
      obtain ⟨a, g⟩ := result
      obtain rfl : a = 24 := value
      have whole := reachable_fourfold.ask_gradient_iff.2 meant
      obtain ⟨f', held, -, -, -, -, gradients, -⟩ := Reachable.ask_held_eq_without reachable_fourfold
        (m := twoAmongThree) (t := [1, 2, 3, 4]) (h := ⟨1⟩) rfl rfl rfl rfl
      obtain ⟨g', gradient, without⟩ := gradients _ _ whole
      refine ⟨g, f', g', whole, entries, held, gradient, ?_⟩
      rw [without, entries]
      rfl

end Objective

end Descent
