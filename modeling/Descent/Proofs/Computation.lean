import Mathlib
import Descent.Objective.Edit
import Descent.Objective.Evaluate

namespace Descent

section

variable {ε σ α β : Type}

theorem bind_eq_ok {x : Except ε α} {next : α → Except ε β} {b : β} :
    x >>= next = .ok b ↔ ∃ a, x = .ok a ∧ next a = .ok b := by
  cases x with
  | error fault => exact ⟨nofun, nofun⟩
  | ok a => exact ⟨fun run => ⟨a, rfl, run⟩, fun ⟨_, rfl, run⟩ => run⟩

theorem exists_of_isOk {x : Except ε α} (ok : x.isOk = true) : ∃ a, x = .ok a := by
  cases x with
  | error fault => cases ok
  | ok a => exact ⟨a, rfl⟩

theorem eq_ok_get {x : Except ε α} (some : x.toOption.isSome = true) : x = .ok (x.toOption.get some) := by
  cases x with
  | error fault => cases some
  | ok a => rfl

theorem map_ok (f : α → β) (a : α) : f <$> (.ok a : Except ε α) = .ok (f a) := rfl

theorem map_error (f : α → β) (fault : ε) : f <$> (.error fault : Except ε α) = .error fault := rfl

theorem map_eq_ok {f : α → β} {x : Except ε α} {b : β} :
    f <$> x = .ok b ↔ ∃ a, x = .ok a ∧ f a = b := by
  cases x with
  | error fault => exact ⟨nofun, nofun⟩
  | ok a => simp

theorem map_eq_error {f : α → β} {x : Except ε α} {fault : ε} :
    f <$> x = .error fault ↔ x = .error fault := by
  cases x with
  | error other => exact ⟨fun failed => by cases failed; rfl, fun failed => by cases failed; rfl⟩
  | ok a => exact ⟨nofun, nofun⟩

theorem bind_eq_error {x : Except ε α} {next : α → Except ε β} (follows : ∀ a, ∃ b, next a = .ok b) {fault : ε} :
    x >>= next = .error fault ↔ x = .error fault := by
  cases x with
  | error other => exact ⟨fun failed => by cases failed; rfl, fun failed => by cases failed; rfl⟩
  | ok a =>
      obtain ⟨b, made⟩ := follows a
      exact ⟨fun failed => (by cases made.symm.trans failed), fun failed => (by cases failed)⟩

theorem ok_bind (a : α) (next : α → Except ε β) : (.ok a : Except ε α) >>= next = next a := rfl

theorem error_bind (fault : ε) (next : α → Except ε β) : (.error fault : Except ε α) >>= next = .error fault := rfl

theorem mapM_eq_ok {f : α → Except ε β} {g : α → β} {l : List α} (each : ∀ a ∈ l, f a = .ok (g a)) :
    l.mapM f = .ok (l.map g) := by
  induction l with
  | nil => rfl
  | cons a rest ih =>
      rw [List.mapM_cons, each a List.mem_cons_self, ih fun b member =>
        each b (List.mem_cons_of_mem _ member)]
      rfl

theorem getElem?_concat_eq_some {l : List α} {a b : α} {i : Nat} :
    (l ++ [a])[i]? = some b ↔ l[i]? = some b ∨ i = l.length ∧ a = b := by
  grind

theorem exists_of_mem_right {P : α → β → Prop} {l : List α} {l' : List β} (all : List.Forall₂ P l l') {b : β}
    (member : b ∈ l') : ∃ a ∈ l, P a b := by
  induction all with
  | nil => cases member
  | cons here _ ih =>
      rcases List.mem_cons.1 member with rfl | member
      · exact ⟨_, List.mem_cons_self, here⟩
      · obtain ⟨a, known, there⟩ := ih member
        exact ⟨a, List.mem_cons_of_mem _ known, there⟩

theorem mapM_congr {γ : Type} {f : α → Except ε γ} {g : β → Except ε γ} {l : List α} {l' : List β}
    (each : List.Forall₂ (fun a b => f a = g b) l l') : l.mapM f = l'.mapM g := by
  induction each with
  | nil => rfl
  | cons here _ ih => rw [List.mapM_cons, List.mapM_cons, here, ih]

theorem mapM_ok_iff {f : α → Except ε β} {l : List α} {results : List β} :
    l.mapM f = .ok results ↔ List.Forall₂ (fun a b => f a = .ok b) l results := by
  induction l generalizing results with
  | nil => exact ⟨fun all => by cases all; exact .nil, fun all => by cases all; rfl⟩
  | cons a rest ih =>
      rw [List.mapM_cons]
      constructor
      · intro all
        obtain ⟨b, here, all⟩ := bind_eq_ok.1 all
        obtain ⟨others, there, all⟩ := bind_eq_ok.1 all
        cases all
        exact .cons here (ih.1 there)
      · rintro (_ | ⟨here, there⟩)
        rw [here, ok_bind, ih.2 there]
        rfl

theorem mapM_id_ok {results : List (Except ε α)} {values : List α}
    (all : results.mapM id = .ok values) {result : Except ε α} (member : result ∈ results) :
    ∃ a, result = .ok a := by
  induction results generalizing values with
  | nil => cases member
  | cons first rest ih =>
      rw [List.mapM_cons] at all
      obtain ⟨a, here, all⟩ := bind_eq_ok.1 all
      obtain ⟨others, there, -⟩ := bind_eq_ok.1 all
      rcases List.mem_cons.1 member with rfl | member
      · exact ⟨a, here⟩
      · exact ih there member

theorem run_run_bind (x : ExceptT ε (StateM σ) α) (next : α → ExceptT ε (StateM σ) β) (s : σ) :
    StateT.run (ExceptT.run (x >>= next)) s = match StateT.run (ExceptT.run x) s with
      | (.ok a, s') => StateT.run (ExceptT.run (next a)) s'
      | (.error fault, s') => (.error fault, s') := by
  rw [ExceptT.run_bind, StateT.run_bind]
  rcases outcome : StateT.run (ExceptT.run x) s with ⟨fault | a, s'⟩ <;> rfl

theorem run_run_tryCatch (x : ExceptT ε (StateM σ) α) (handler : ε → ExceptT ε (StateM σ) α)
    (s : σ) :
    StateT.run (ExceptT.run (tryCatch x handler)) s = match StateT.run (ExceptT.run x) s with
      | (.ok a, s') => (.ok a, s')
      | (.error fault, s') => StateT.run (ExceptT.run (handler fault)) s' := by
  rw [ExceptT.run_tryCatch, StateT.run_bind]
  rcases outcome : StateT.run (ExceptT.run x) s with ⟨fault | a, s'⟩ <;> rfl

theorem run_run_get (s : σ) : StateT.run (ExceptT.run (get : ExceptT ε (StateM σ) σ)) s = (.ok s, s) :=
  rfl

theorem run_run_set (s t : σ) :
    StateT.run (ExceptT.run (set t : ExceptT ε (StateM σ) PUnit)) s = (.ok ⟨⟩, t) :=
  rfl

theorem run_run_lift (result : Except ε α) (s : σ) :
    StateT.run (ExceptT.run (liftM result : ExceptT ε (StateM σ) α)) s = (result, s) := by
  cases result <;> rfl

theorem run_run_bind_ok {x : ExceptT ε (StateM σ) α} {next : α → ExceptT ε (StateM σ) β} {s s' : σ}
    {b : β} : StateT.run (ExceptT.run (x >>= next)) s = (.ok b, s') ↔
      ∃ a s₁, StateT.run (ExceptT.run x) s = (.ok a, s₁) ∧
        StateT.run (ExceptT.run (next a)) s₁ = (.ok b, s') := by
  rw [run_run_bind]
  rcases StateT.run (ExceptT.run x) s with ⟨fault | a, s₁⟩
  · exact ⟨nofun, nofun⟩
  · exact ⟨fun run => ⟨a, s₁, rfl, run⟩, fun ⟨_, _, same, run⟩ => by cases same; exact run⟩

def Keeps (I : σ → Prop) (x : ExceptT ε (StateM σ) α) : Prop :=
  ∀ s, I s → I (StateT.run (ExceptT.run x) s).2

variable {I : σ → Prop}

theorem keeps_pure (a : α) : Keeps I (pure a : ExceptT ε (StateM σ) α) := fun _ holds => holds

theorem keeps_throw (fault : ε) : Keeps I (throw fault : ExceptT ε (StateM σ) α) :=
  fun _ holds => holds

theorem keeps_lift (result : Except ε α) : Keeps I (liftM result : ExceptT ε (StateM σ) α) := by
  cases result <;> exact fun _ holds => holds

theorem keeps_get : Keeps I (get : ExceptT ε (StateM σ) σ) := fun _ holds => holds

theorem keeps_modify {change : σ → σ} (kept : ∀ s, I s → I (change s)) :
    Keeps I (modify change : ExceptT ε (StateM σ) PUnit) :=
  kept

theorem Keeps.bind {x : ExceptT ε (StateM σ) α} {next : α → ExceptT ε (StateM σ) β}
    (first : Keeps I x) (then_ : ∀ a, Keeps I (next a)) : Keeps I (x >>= next) := by
  intro s holds
  have kept := first s holds
  rw [run_run_bind]
  rcases outcome : StateT.run (ExceptT.run x) s with ⟨fault | a, s'⟩ <;> rw [outcome] at kept
  · exact kept
  · exact then_ a s' kept

theorem Keeps.tryCatch {x : ExceptT ε (StateM σ) α} {handler : ε → ExceptT ε (StateM σ) α}
    (first : Keeps I x) (handled : ∀ fault, Keeps I (handler fault)) :
    Keeps I (tryCatch x handler) := by
  intro s holds
  have kept := first s holds
  rw [run_run_tryCatch]
  rcases outcome : StateT.run (ExceptT.run x) s with ⟨fault | a, s'⟩ <;> rw [outcome] at kept
  · exact handled fault s' kept
  · exact kept

theorem keeps_forM {x : β → ExceptT ε (StateM σ) PUnit} {l : List β}
    (kept : ∀ b ∈ l, Keeps I (x b)) : Keeps I (l.forM x) := by
  induction l with
  | nil => exact keeps_pure _
  | cons b rest ih =>
      exact (kept b List.mem_cons_self).bind fun _ => ih fun c member =>
        kept c (List.mem_cons_of_mem _ member)

end

namespace Edit

variable {α β γ : Type} (m : Memory α) (f : Objective α)

theorem run_bind (e : Edit α β) (next : β → Edit α γ) :
    (e >>= next).run m f = match e.run m f with
      | (.ok b, g) => (next b).run m g
      | (.error fault, g) => (.error fault, g) := by
  simp only [Edit.run, ReaderT.run_bind, run_run_bind]
  rcases StateT.run (ExceptT.run (ReaderT.run e m)) f with ⟨fault | b, g⟩ <;> rfl

theorem run_tryCatch (e : Edit α β) (handler : Fault α → Edit α β) :
    (tryCatch e handler).run m f = match e.run m f with
      | (.ok b, g) => (.ok b, g)
      | (.error fault, g) => (handler fault).run m g := by
  have caught := run_run_tryCatch (ReaderT.run e m) (fun fault => ReaderT.run (handler fault) m) f
  refine caught.trans ?_
  rw [Edit.run]
  rcases StateT.run (ExceptT.run (ReaderT.run e m)) f with ⟨fault | b, g⟩ <;> rfl

theorem run_pure (b : β) : (pure b : Edit α β).run m f = (.ok b, f) := rfl

theorem run_throw (fault : Fault α) : (throw fault : Edit α β).run m f = (.error fault, f) := rfl

theorem run_get : (get : Edit α (Objective α)).run m f = (.ok f, f) := rfl

theorem run_read : (read : Edit α (Memory α)).run m f = (.ok m, f) := rfl

theorem run_set (g : Objective α) : (set g : Edit α PUnit).run m f = (.ok (), g) := rfl

theorem run_modify (change : Objective α → Objective α) :
    (modify change : Edit α PUnit).run m f = (.ok (), change f) := rfl

theorem run_lift (result : Except (Fault α) β) :
    (liftM result : Edit α β).run m f = (result, f) := by
  cases result <;> rfl

theorem run_forM (l : List β) (e : β → Edit α PUnit) :
    ReaderT.run (l.forM e) m = l.forM fun b => ReaderT.run (e b) m := by
  induction l with
  | nil => rfl
  | cons b rest ih =>
      rw [List.forM, ReaderT.run_bind, ih, List.forM]

end Edit

namespace Evaluation

variable {α β γ : Type} (w : Workspace α)

theorem run_bind (e : Evaluation α β) (next : β → Evaluation α γ) :
    (e >>= next).run w = match e.run w with
      | (.ok b, w') => (next b).run w'
      | (.error fault, w') => (.error fault, w') := by
  rw [Evaluation.run, run_run_bind, Evaluation.run]
  rcases StateT.run (ExceptT.run e) w with ⟨fault | b, w'⟩ <;> rfl

theorem run_pure (b : β) : (pure b : Evaluation α β).run w = (.ok b, w) := rfl

theorem run_throw (fault : Fault α) : (throw fault : Evaluation α β).run w = (.error fault, w) := rfl

theorem run_get : (get : Evaluation α (Workspace α)).run w = (.ok w, w) := rfl

theorem run_modify (change : Workspace α → Workspace α) :
    (modify change : Evaluation α PUnit).run w = (.ok (), change w) := rfl

theorem run_lift (result : Except (Fault α) β) :
    (liftM result : Evaluation α β).run w = (result, w) := by
  cases result <;> rfl

end Evaluation

end Descent
