import ScriptWasm.Emission.Lower

/-!
# Steps that may fail

Filling tables is a sequence of steps in `Except`, and emitting code threads the locals through such
a sequence; what is done with files is a sequence of steps in `StateM`. Everything that is proved
about them starts by taking a sequence apart, so what a bind, lift or return says is stated here
once, and no later proof opens a monad.
-/

namespace ScriptWasm

open Wasm

section Except

variable {ε α β : Type}

theorem bind_eq_ok_iff {x : Except ε α} {f : α → Except ε β} {b : β} :
    (x >>= f) = .ok b ↔ ∃ a, x = .ok a ∧ f a = .ok b := by
  cases x with
  | error e => simp [bind, Except.bind]
  | ok a => simp [bind, Except.bind]

theorem map_eq_ok_iff {x : Except ε α} {f : α → β} {b : β} :
    f <$> x = .ok b ↔ ∃ a, x = .ok a ∧ f a = b := by
  cases x with
  | error e => simp [Functor.map, Except.map]
  | ok a => simp [Functor.map, Except.map]

@[simp] theorem pure_eq_ok_iff {a b : α} : (pure a : Except ε α) = .ok b ↔ a = b := by
  simp [pure, Except.pure]

@[simp] theorem throw_eq_ok_iff {e : ε} {a : α} : (throw e : Except ε α) = .ok a ↔ False := by
  simp [throw, throwThe, MonadExceptOf.throw]

@[simp] theorem ok_bind (a : α) (f : α → Except ε β) : (Except.ok a >>= f) = f a := rfl

theorem exists_of_isOk {x : Except ε α} (h : x.isOk = true) : ∃ a, x = .ok a := by
  cases x with
  | error e => cases h
  | ok a => exact ⟨a, rfl⟩

/-- Steps for each element of a list give a result for each. -/
theorem mapM_eq_ok {f : α → Except ε β} {l : List α} {l' : List β} (h : l.mapM f = .ok l') :
    l'.length = l.length ∧
      ∀ {i : Nat} {a}, l[i]? = some a → ∃ b, l'[i]? = some b ∧ f a = .ok b := by
  induction l generalizing l' with
  | nil =>
    cases h
    exact ⟨rfl, nofun⟩
  | cons a l ih =>
    simp only [List.mapM_cons, bind_eq_ok_iff, pure_eq_ok_iff] at h
    obtain ⟨b, hb, l', hl, rfl⟩ := h
    obtain ⟨hlen, hget⟩ := ih hl
    refine ⟨by rw [List.length_cons, List.length_cons, hlen], fun {i a'} hi ↦ ?_⟩
    cases i with
    | zero =>
      obtain rfl : a = a' := Option.some.inj hi
      exact ⟨b, rfl, hb⟩
    | succ i => exact hget hi

theorem mapM_eq_some {f : α → Option β} {l : List α} {l' : List β} (h : l.mapM f = some l') :
    l'.length = l.length ∧
      ∀ {i : Nat} {a}, l[i]? = some a → ∃ b, l'[i]? = some b ∧ f a = some b := by
  induction l generalizing l' with
  | nil =>
    cases h
    exact ⟨rfl, nofun⟩
  | cons a l ih =>
    simp only [List.mapM_cons, Option.bind_eq_bind, Option.bind_eq_some_iff, Option.pure_def,
      Option.some.injEq] at h
    obtain ⟨b, hb, l', hl, rfl⟩ := h
    obtain ⟨hlen, hget⟩ := ih hl
    refine ⟨by rw [List.length_cons, List.length_cons, hlen], fun {i a'} hi ↦ ?_⟩
    cases i with
    | zero =>
      obtain rfl : a = a' := Option.some.inj hi
      exact ⟨b, rfl, hb⟩
    | succ i => exact hget hi

/-- Each of the results comes from an element. -/
theorem exists_of_mem_mapM {f : α → Except ε β} {l : List α} {l' : List β} (h : l.mapM f = .ok l')
    {b : β} (hb : b ∈ l') : ∃ a ∈ l, f a = .ok b := by
  obtain ⟨hlength, hget⟩ := mapM_eq_ok h
  obtain ⟨i, hi, rfl⟩ := List.getElem_of_mem hb
  obtain ⟨b, hb, hf⟩ := hget (List.getElem?_eq_getElem (hlength ▸ hi))
  obtain rfl := Option.some.inj ((List.getElem?_eq_getElem hi).symm.trans hb)
  exact ⟨_, List.getElem_mem _, hf⟩

/-- A step succeeds exactly under a condition. -/
def SucceedsIff (x : Except ε α) (P : Prop) : Prop := (∃ a, x = .ok a) ↔ P

namespace SucceedsIff

variable {x : Except ε α} {P Q : Prop}

theorem congr (h : SucceedsIff x P) (hPQ : P ↔ Q) : SucceedsIff x Q := Iff.trans h hPQ

theorem pure (a : α) : SucceedsIff (pure a : Except ε α) True := iff_of_true ⟨a, rfl⟩ trivial

theorem of_ok {a : α} (h : x = .ok a) : SucceedsIff x True := iff_of_true ⟨a, h⟩ trivial

theorem throw (e : ε) : SucceedsIff (throw e : Except ε α) False :=
  iff_of_false (fun ⟨_, h⟩ ↦ nomatch h) id

/-- What comes second may depend on the result of what comes first, but not whether it succeeds. -/
theorem bind {f : α → Except ε β} (hx : SucceedsIff x P)
    (hf : ∀ a, x = .ok a → SucceedsIff (f a) Q) : SucceedsIff (x >>= f) (P ∧ Q) := by
  constructor
  · rintro ⟨b, hb⟩
    obtain ⟨a, ha, hb⟩ := bind_eq_ok_iff.mp hb
    exact ⟨hx.mp ⟨a, ha⟩, (hf a ha).mp ⟨b, hb⟩⟩
  · rintro ⟨hP, hQ⟩
    obtain ⟨a, ha⟩ := hx.mpr hP
    obtain ⟨b, hb⟩ := (hf a ha).mpr hQ
    exact ⟨b, bind_eq_ok_iff.mpr ⟨a, ha, hb⟩⟩

theorem map {f : α → β} (hx : SucceedsIff x P) : SucceedsIff (f <$> x) P := by
  cases x with
  | error e => exact (iff_of_false (fun ⟨_, h⟩ ↦ nomatch h) fun ⟨_, h⟩ ↦ nomatch h).trans hx
  | ok a => exact (iff_of_true ⟨f a, rfl⟩ ⟨a, rfl⟩).trans hx

theorem mapM {f : α → Except ε β} {P : α → Prop} {l : List α}
    (hf : ∀ a ∈ l, SucceedsIff (f a) (P a)) : SucceedsIff (l.mapM f) (∀ a ∈ l, P a) := by
  induction l with
  | nil => exact (SucceedsIff.pure []).congr (by simp)
  | cons a l ih =>
    rw [List.mapM_cons]
    refine ((hf a List.mem_cons_self).bind fun _ _ ↦
      (ih fun b hb ↦ hf b (List.mem_cons_of_mem a hb)).bind fun _ _ ↦ .pure _).congr ?_
    rw [and_true, List.forall_mem_cons]

end SucceedsIff

end Except

/-! ## Steps that change a state -/

section StateM

variable {σ α β : Type}

theorem stateM_bind_apply (x : StateM σ α) (f : α → StateM σ β) (s : σ) :
    (x >>= f) s = f (x s).1 (x s).2 := rfl

theorem stateM_pure_apply (a : α) (s : σ) : (pure a : StateM σ α) s = (a, s) := rfl

end StateM

/-! ## Steps that add locals -/

namespace Lowering

variable {α β : Type} {ls : Locals}

theorem bind_eq_ok_iff {x : Lowering α} {f : α → Lowering β} {r : β × Locals} :
    (x >>= f) ls = .ok r ↔ ∃ a l, x ls = .ok (a, l) ∧ f a l = .ok r := by
  simp only [bind, StateT.bind]
  constructor
  · intro h
    obtain ⟨⟨a, l⟩, hx, hf⟩ := ScriptWasm.bind_eq_ok_iff.mp h
    exact ⟨a, l, hx, hf⟩
  · rintro ⟨a, l, hx, hf⟩
    exact ScriptWasm.bind_eq_ok_iff.mpr ⟨(a, l), hx, hf⟩

@[simp] theorem pure_eq_ok_iff {a : α} {r : α × Locals} :
    (pure a : Lowering α) ls = .ok r ↔ (a, ls) = r := by
  have hpure : (pure a : Lowering α) ls = .ok (a, ls) := rfl
  rw [hpure, Except.ok.injEq]

theorem map_eq_ok_iff {x : Lowering α} {f : α → β} {r : β × Locals} :
    (f <$> x) ls = .ok r ↔ ∃ a l, x ls = .ok (a, l) ∧ (f a, l) = r := by
  rw [← bind_pure_comp, bind_eq_ok_iff]
  simp only [pure_eq_ok_iff]

/-- A step that adds no locals. -/
theorem lift_eq_ok_iff {x : Except EmitError α} {a : α} {l : Locals} :
    (liftM x : Lowering α) ls = .ok (a, l) ↔ x = .ok a ∧ l = ls := by
  cases x with
  | error e =>
    simp [liftM, monadLift, MonadLift.monadLift, StateT.lift, bind, Except.bind]
  | ok b =>
    simp [liftM, monadLift, MonadLift.monadLift, StateT.lift, bind, Except.bind, pure, Except.pure,
      eq_comm (a := ls)]

@[simp] theorem throw_eq_ok_iff {e : EmitError} {r : α × Locals} :
    (throw e : Lowering α) ls = .ok r ↔ False := by
  simp [throw, throwThe, MonadExceptOf.throw, StateT.lift, bind, Except.bind]

@[simp] theorem addLocal_eq_ok_iff {type : ValType} {i : Nat} {l : Locals} :
    addLocal type ls = .ok (i, l) ↔ i = ls.length ∧ l = ls ++ [type] := by
  simp [addLocal, eq_comm (a := ls.length), eq_comm (a := ls ++ [type])]

/-- A step succeeds exactly under a condition, whatever the locals are. -/
def SucceedsIff (x : Lowering α) (P : Prop) : Prop := ∀ ls, ScriptWasm.SucceedsIff (x ls) P

namespace SucceedsIff

variable {x : Lowering α} {P Q : Prop}

theorem congr (h : SucceedsIff x P) (hPQ : P ↔ Q) : SucceedsIff x Q := fun ls ↦ (h ls).congr hPQ

theorem pure (a : α) : SucceedsIff (pure a : Lowering α) True := fun ls ↦ .of_ok (a := (a, ls)) rfl

theorem throw (e : EmitError) : SucceedsIff (throw e : Lowering α) False := fun _ ↦ .throw e

theorem addLocal (type : ValType) : SucceedsIff (addLocal type) True := fun _ ↦ .of_ok rfl

theorem lift {y : Except EmitError α} (h : ScriptWasm.SucceedsIff y P) :
    SucceedsIff (liftM y : Lowering α) P := by
  intro ls
  cases y with
  | error e => exact (iff_of_false (fun ⟨_, h⟩ ↦ nomatch h) fun ⟨_, h⟩ ↦ nomatch h).trans h
  | ok a => exact (iff_of_true ⟨(a, ls), rfl⟩ ⟨a, rfl⟩).trans h

theorem bind {f : α → Lowering β} (hx : SucceedsIff x P) (hf : ∀ a, SucceedsIff (f a) Q) :
    SucceedsIff (x >>= f) (P ∧ Q) := fun ls ↦ (hx ls).bind fun r _ ↦ hf r.1 r.2

/-- A step that adds no locals comes first. -/
theorem lift_bind {y : Except EmitError α} {f : α → Lowering β} (hy : ScriptWasm.SucceedsIff y P)
    (hf : ∀ a, y = .ok a → SucceedsIff (f a) Q) :
    SucceedsIff ((liftM y : Lowering α) >>= f) (P ∧ Q) := by
  intro ls
  refine ((lift hy) ls).bind fun r hr ↦ ?_
  exact hf r.1 (lift_eq_ok_iff.mp hr).1 r.2

theorem map {f : α → β} (hx : SucceedsIff x P) : SucceedsIff (f <$> x) P := by
  rw [← bind_pure_comp]
  exact (hx.bind fun a ↦ .pure (f a)).congr (and_iff_left trivial)

end SucceedsIff

end Lowering

end ScriptWasm
