import Mathlib.Data.List.Forall2
import Mathlib.Data.List.Infix

namespace Transducer

variable {σ σ₁ σ₂ ι ι₁ ι₂ ω ω₁ ω₂ : Type*}

/-- Feed a finite input word to a deterministic step function, keeping the final
    state and one output per input. -/
def run (step : σ → ι → σ × ω) : σ → List ι → σ × List ω
  | s, [] => (s, [])
  | s, i :: is =>
    let next := step s i
    let rest := run step next.1 is
    (rest.1, next.2 :: rest.2)

@[simp] theorem run_nil (step : σ → ι → σ × ω) (s : σ) : run step s [] = (s, []) := rfl

theorem run_cons (step : σ → ι → σ × ω) (s : σ) (i : ι) (is : List ι) :
    run step s (i :: is) =
      ((run step (step s i).1 is).1, (step s i).2 :: (run step (step s i).1 is).2) := rfl

@[simp] theorem run_cons_state (step : σ → ι → σ × ω) (s : σ) (i : ι) (is : List ι) :
    (run step s (i :: is)).1 = (run step (step s i).1 is).1 := rfl

@[simp] theorem run_cons_outputs (step : σ → ι → σ × ω) (s : σ) (i : ι) (is : List ι) :
    (run step s (i :: is)).2 = (step s i).2 :: (run step (step s i).1 is).2 := rfl

/-- Running a concatenation is running its parts one after the other. -/
theorem run_append (step : σ → ι → σ × ω) (s : σ) (xs ys : List ι) :
    run step s (xs ++ ys) =
      ((run step (run step s xs).1 ys).1,
        (run step s xs).2 ++ (run step (run step s xs).1 ys).2) := by
  induction xs generalizing s with
  | nil => simp
  | cons x xs ih => simp [run_cons, ih]

@[simp] theorem length_run_outputs (step : σ → ι → σ × ω) (s : σ) (is : List ι) :
    (run step s is).2.length = is.length := by
  induction is generalizing s with
  | nil => rfl
  | cons i is ih => simp [ih]

/-- The output at a position is the step's answer in the state its prefix reaches. -/
theorem run_output_at (step : σ → ι → σ × ω) (s : σ) (xs : List ι) (i : ι) (ys : List ι) :
    (run step s (xs ++ i :: ys)).2[xs.length]? = some (step (run step s xs).1 i).2 := by
  rw [run_append, List.getElem?_append_right (by simp)]
  simp

/-- An input of a run and its output are the step's answer in the state some prefix reaches. -/
theorem exists_of_mem_zip_run {step : σ → ι → σ × ω} {s : σ} {is : List ι} {i : ι} {o : ω}
    (h : (i, o) ∈ is.zip (run step s is).2) :
    ∃ before after, is = before ++ i :: after ∧ o = (step (run step s before).1 i).2 := by
  induction is generalizing s with
  | nil => simp at h
  | cons j is ih =>
    rw [run_cons_outputs, List.zip_cons_cons, List.mem_cons] at h
    rcases h with hhead | htail
    · obtain ⟨rfl, rfl⟩ := Prod.mk.inj hhead
      exact ⟨[], is, rfl, rfl⟩
    · obtain ⟨before, after, rfl, rfl⟩ := ih htail
      exact ⟨j :: before, after, rfl, rfl⟩

/-- The invariant rule: what every step keeps holds at the end of every run. -/
theorem run_invariant {step : σ → ι → σ × ω} (Inv : σ → Prop)
    (hstep : ∀ s i, Inv s → Inv (step s i).1) {s : σ} (hs : Inv s) (is : List ι) :
    Inv (run step s is).1 := by
  induction is generalizing s with
  | nil => exact hs
  | cons i is ih => exact ih (hstep s i hs)

/-- The history rule: what every step keeps of the state and of the answers given so far holds at
    the end of every run. -/
theorem run_history {step : σ → ι → σ × ω} (Inv : σ → List ω → Prop)
    (hstep : ∀ s os i, Inv s os → Inv (step s i).1 (os ++ [(step s i).2])) {s : σ} (hs : Inv s [])
    (is : List ι) : Inv (run step s is).1 (run step s is).2 := by
  suffices hall : ∀ s os, Inv s os → Inv (run step s is).1 (os ++ (run step s is).2) from
    hall s [] hs
  induction is with
  | nil => simp
  | cons i is ih =>
    intro s os hos
    have hrest := ih (step s i).1 (os ++ [(step s i).2]) (hstep s os i hos)
    rwa [List.append_assoc] at hrest

/-- The output rule: what an invariant guarantees of one step's output relates
    the inputs of a run to its outputs, position by position. -/
theorem run_forall₂ {step : σ → ι → σ × ω} (Inv : σ → Prop) {Post : ι → ω → Prop}
    (hstep : ∀ s i, Inv s → Inv (step s i).1) (hpost : ∀ s i, Inv s → Post i (step s i).2)
    {s : σ} (hs : Inv s) (is : List ι) : List.Forall₂ Post is (run step s is).2 := by
  induction is generalizing s with
  | nil => exact .nil
  | cons i is ih => exact .cons (hpost s i hs) (ih (hstep s i hs))

/-- What a pointwise relation says of its right side alone holds of every member. -/
theorem forall_mem_of_forall₂ {P : ω → Prop} {is : List ι} {os : List ω}
    (h : List.Forall₂ (fun _ o => P o) is os) : ∀ o ∈ os, P o := by
  induction h with
  | nil => simp
  | cons ho _ ih => simpa using ⟨ho, ih⟩

/-- The monotone rule: a quantity that no step lowers only grows along a run. -/
theorem run_monotone {α : Type*} [Preorder α] {step : σ → ι → σ × ω} (Inv : σ → Prop) (f : σ → α)
    (hstep : ∀ s i, Inv s → Inv (step s i).1) (hle : ∀ s i, Inv s → f s ≤ f (step s i).1)
    {s : σ} (hs : Inv s) (is : List ι) : f s ≤ f (run step s is).1 := by
  induction is generalizing s with
  | nil => exact le_rfl
  | cons i is ih => exact (hle s i hs).trans (ih (hstep s i hs))

/-- The counting rule: a quantity that every step raises by one counts the inputs. -/
theorem run_count {step : σ → ι → σ × ω} (count : σ → Nat)
    (hstep : ∀ s i, count (step s i).1 = count s + 1) (s : σ) (is : List ι) :
    count (run step s is).1 = count s + is.length := by
  induction is generalizing s with
  | nil => rfl
  | cons i is ih =>
    rw [run_cons_state, ih, hstep, List.length_cons]
    omega

/-- The log rule: when a step appends one row for a selected input and none for any
    other, a run appends one row for each selected input, in order. -/
theorem run_log {ρ : Type*} {step : σ → ι → σ × ω} (Inv : σ → Prop) (log : σ → List ρ)
    (sel : ι → Bool) (Row : ι × ω → ρ → Prop) (hinv : ∀ s i, Inv s → Inv (step s i).1)
    (hskip : ∀ s i, Inv s → sel i = false → log (step s i).1 = log s)
    (hrow : ∀ s i, Inv s → sel i = true →
      ∃ r, log (step s i).1 = log s ++ [r] ∧ Row (i, (step s i).2) r)
    {s : σ} (hs : Inv s) (is : List ι) :
    ∃ rows, log (run step s is).1 = log s ++ rows ∧
      List.Forall₂ Row ((is.zip (run step s is).2).filter fun io => sel io.1) rows := by
  induction is generalizing s with
  | nil => exact ⟨[], by simp, .nil⟩
  | cons i is ih =>
    obtain ⟨rows, hlog, hrows⟩ := ih (hinv s i hs)
    cases hsel : sel i with
    | false =>
      refine ⟨rows, ?_, by simpa [hsel] using hrows⟩
      rw [run_cons_state, hlog, hskip s i hs hsel]
    | true =>
      obtain ⟨r, happend, hr⟩ := hrow s i hs hsel
      refine ⟨r :: rows, ?_, by simpa [hsel] using ⟨hr, hrows⟩⟩
      rw [run_cons_state, hlog, happend, List.append_assoc, List.singleton_append]

/-- A tick that no step looks at stays on the state of a run, and the run answers as without it. -/
theorem run_tick {step : σ → ι → σ × ω} (tick : σ → σ)
    (htick : ∀ s i, step (tick s) i = (tick (step s i).1, (step s i).2)) (s : σ) (is : List ι) :
    run step (tick s) is = (tick (run step s is).1, (run step s is).2) := by
  induction is generalizing s with
  | nil => rfl
  | cons i is ih => rw [run_cons, run_cons, htick, ih]

/-- The isolation rule: when the inputs that are not selected only tick a part of the state that
    no step looks at, a run ends as the run of the selected inputs does, up to the ticks, and
    answers these as it does. -/
theorem run_filter {step : σ → ι → σ × ω} (Inv : σ → Prop) (sel : ι → Bool) (tick : σ → σ)
    (htick : ∀ s i, step (tick s) i = (tick (step s i).1, (step s i).2)) {s : σ} (hs : Inv s)
    (is : List ι) (hinv : ∀ s i, Inv s → Inv (step s i).1)
    (hinert : ∀ s i, Inv s → i ∈ is → sel i = false → (step s i).1 = tick s) :
    (run step s is).1 = tick^[is.countP fun i => !sel i] (run step s (is.filter sel)).1 ∧
      ((is.zip (run step s is).2).filter fun io => sel io.1).map Prod.snd =
        (run step s (is.filter sel)).2 := by
  induction is generalizing s with
  | nil => exact ⟨rfl, rfl⟩
  | cons i is ih =>
    obtain ⟨hstate, houts⟩ := ih (hinv s i hs) fun s' i' hs' hi' => hinert s' i' hs' (.tail i hi')
    cases hsel : sel i with
    | true => simp [hsel, hstate, houts]
    | false =>
      -- the rest runs from the ticked state
      rw [hinert s i hs (.head is) hsel, run_tick tick htick s is,
        run_tick tick htick s (is.filter sel)] at hstate houts
      rw [run_cons, List.zip_cons_cons, List.filter_cons_of_neg (by simp [hsel]),
        List.filter_cons_of_neg (by simp [hsel]), List.countP_cons_of_pos (by simp [hsel]),
        hinert s i hs (.head is) hsel, run_tick tick htick s is]
      exact ⟨hstate.trans (Function.iterate_succ_apply tick _ _).symm, houts⟩

/-- The environment may feed these inputs: each is allowed in the state it meets. -/
def Admits (step : σ → ι → σ × ω) (allowed : σ → ι → Prop) : σ → List ι → Prop
  | _, [] => True
  | s, i :: is => allowed s i ∧ Admits step allowed (step s i).1 is

/-- The output rule for a constrained environment: an invariant kept by the allowed inputs
    relates the inputs of a run to its outputs, position by position. -/
theorem Admits.run_forall₂ {step : σ → ι → σ × ω} {allowed : σ → ι → Prop} (Inv : σ → Prop)
    {Post : ι → ω → Prop} (hstep : ∀ s i, Inv s → allowed s i → Inv (step s i).1)
    (hpost : ∀ s i, Inv s → allowed s i → Post i (step s i).2) {s : σ} {is : List ι}
    (h : Admits step allowed s is) (hs : Inv s) : List.Forall₂ Post is (run step s is).2 := by
  induction is generalizing s with
  | nil => exact .nil
  | cons i is ih =>
    obtain ⟨hi, hrest⟩ := h
    exact .cons (hpost s i hs hi) (ih hrest (hstep s i hs hi))

/-- The third word has the inputs of the first two, those of each in their order. -/
inductive Interleaving {ι : Type*} : List ι → List ι → List ι → Prop
  | nil : Interleaving [] [] []
  | left {i : ι} {xs ys zs : List ι} (h : Interleaving xs ys zs) : Interleaving (i :: xs) ys (i :: zs)
  | right {i : ι} {xs ys zs : List ι} (h : Interleaving xs ys zs) : Interleaving xs (i :: ys) (i :: zs)

theorem Interleaving.length_eq {xs ys zs : List ι} (h : Interleaving xs ys zs) :
    zs.length = xs.length + ys.length := by
  induction h with
  | nil => rfl
  | left _ ih =>
    rw [List.length_cons, List.length_cons, ih]
    omega
  | right _ ih =>
    rw [List.length_cons, List.length_cons, ih]
    omega

/-- One word after the other. -/
theorem Interleaving.append (xs ys : List ι) : Interleaving xs ys (xs ++ ys) := by
  induction xs with
  | nil =>
    induction ys with
    | nil => exact .nil
    | cons y ys ih => exact .right ih
  | cons x xs ih => exact .left ih

/-- The refinement rule: machines whose related states answer each input alike, up to what the
    first one shows, answer every word alike. -/
theorem run_refines {step₁ : σ₁ → ι → σ₁ × ω₁} {step₂ : σ₂ → ι → σ₂ × ω₂} (Related : σ₁ → σ₂ → Prop)
    (shown : ω₂ → ω₁) (hstep : ∀ s₁ s₂ i, Related s₁ s₂ →
      Related (step₁ s₁ i).1 (step₂ s₂ i).1 ∧ (step₁ s₁ i).2 = shown (step₂ s₂ i).2)
    {s₁ : σ₁} {s₂ : σ₂} (hs : Related s₁ s₂) (is : List ι) :
    Related (run step₁ s₁ is).1 (run step₂ s₂ is).1 ∧
      (run step₁ s₁ is).2 = (run step₂ s₂ is).2.map shown := by
  induction is generalizing s₁ s₂ with
  | nil => exact ⟨hs, rfl⟩
  | cons i is ih =>
    obtain ⟨hstate, hout⟩ := hstep s₁ s₂ i hs
    obtain ⟨hrest, houts⟩ := ih hstate
    exact ⟨hrest, by rw [run_cons_outputs, run_cons_outputs, List.map_cons, hout, houts]⟩

/-- Two step functions simulate one another along a relation of their states:
    related states answer related inputs with related outputs and stay related. -/
structure Simulation (step₁ : σ₁ → ι₁ → σ₁ × ω₁) (step₂ : σ₂ → ι₂ → σ₂ × ω₂)
    (Inputs : ι₁ → ι₂ → Prop) (Answers : ι₁ × ω₁ → ι₂ × ω₂ → Prop) (Related : σ₁ → σ₂ → Prop) :
    Prop where
  state : ∀ {s₁ s₂ i₁ i₂}, Related s₁ s₂ → Inputs i₁ i₂ →
    Related (step₁ s₁ i₁).1 (step₂ s₂ i₂).1
  answer : ∀ {s₁ s₂ i₁ i₂}, Related s₁ s₂ → Inputs i₁ i₂ →
    Answers (i₁, (step₁ s₁ i₁).2) (i₂, (step₂ s₂ i₂).2)

/-- A simulation carries over to runs on related input words. -/
theorem Simulation.run {step₁ : σ₁ → ι₁ → σ₁ × ω₁} {step₂ : σ₂ → ι₂ → σ₂ × ω₂}
    {Inputs : ι₁ → ι₂ → Prop} {Answers : ι₁ × ω₁ → ι₂ × ω₂ → Prop} {Related : σ₁ → σ₂ → Prop}
    (hsim : Simulation step₁ step₂ Inputs Answers Related) {s₁ : σ₁} {s₂ : σ₂}
    (hs : Related s₁ s₂) {is₁ : List ι₁} {is₂ : List ι₂} (his : List.Forall₂ Inputs is₁ is₂) :
    Related (Transducer.run step₁ s₁ is₁).1 (Transducer.run step₂ s₂ is₂).1 ∧
      List.Forall₂ Answers (is₁.zip (Transducer.run step₁ s₁ is₁).2)
        (is₂.zip (Transducer.run step₂ s₂ is₂).2) := by
  induction his generalizing s₁ s₂ with
  | nil => exact ⟨hs, .nil⟩
  | cons hi _ ih =>
    obtain ⟨hstate, hanswers⟩ := ih (hsim.state hs hi)
    exact ⟨hstate, .cons (hsim.answer hs hi) hanswers⟩

/-- What the picked inputs of a run are for another machine. -/
def picked (pick : ι₁ × ω₁ → Option ι₂) (step : σ₁ → ι₁ → σ₁ × ω₁) (s : σ₁) (is : List ι₁) : List ι₂ :=
  (is.zip (run step s is).2).filterMap pick

/-- Picking by the input alone. -/
theorem picked_eq_filterMap {pick : ι₁ × ω₁ → Option ι₂} {step : σ₁ → ι₁ → σ₁ × ω₁} {f : ι₁ → Option ι₂}
    (h : ∀ s i, pick (i, (step s i).2) = f i) (s : σ₁) (is : List ι₁) :
    picked pick step s is = is.filterMap f := by
  unfold picked
  induction is generalizing s with
  | nil => rfl
  | cons i is ih =>
    rw [run_cons_outputs, List.zip_cons_cons, List.filterMap_cons, List.filterMap_cons, h, ih]

/-- The selection rule: when a second machine does on the picked inputs what the first does, and the
    others change nothing the two agree on, it ends a run of the picked inputs alone in agreement
    and answers them as the first machine does. -/
theorem run_picks {step₁ : σ₁ → ι₁ → σ₁ × ω₁} {step₂ : σ₂ → ι₂ → σ₂ × ω₂} (Related : σ₁ → σ₂ → Prop)
    (pick : ι₁ × ω₁ → Option ι₂) (shown : ω₁ → ω₂) (Fit : ι₂ → Prop)
    (hstep : ∀ s₁ s₂ i, Related s₁ s₂ → (pick (i, (step₁ s₁ i).2)).elim (Related (step₁ s₁ i).1 s₂)
      fun j => Fit j → Related (step₁ s₁ i).1 (step₂ s₂ j).1 ∧ (step₂ s₂ j).2 = shown (step₁ s₁ i).2)
    {s₁ : σ₁} {s₂ : σ₂} (hs : Related s₁ s₂) {is : List ι₁} (hfit : ∀ j ∈ picked pick step₁ s₁ is, Fit j) :
    Related (run step₁ s₁ is).1 (run step₂ s₂ (picked pick step₁ s₁ is)).1 ∧
      (run step₂ s₂ (picked pick step₁ s₁ is)).2 =
        ((is.zip (run step₁ s₁ is).2).filter fun io => (pick io).isSome).map fun io => shown io.2 := by
  induction is generalizing s₁ s₂ with
  | nil => exact ⟨hs, rfl⟩
  | cons i is ih =>
    have hhead := hstep s₁ s₂ i hs
    unfold picked at hfit ih ⊢
    rw [run_cons_outputs, List.zip_cons_cons] at hfit ⊢
    rcases hpick : pick (i, (step₁ s₁ i).2) with _ | j
    · rw [hpick] at hhead
      rw [List.filterMap_cons_none hpick] at hfit ⊢
      rw [List.filter_cons_of_neg (by simp [hpick])]
      exact ih hhead hfit
    · rw [hpick] at hhead
      rw [List.filterMap_cons_some hpick] at hfit ⊢
      obtain ⟨hstate, hout⟩ := hhead (hfit j (.head _))
      obtain ⟨hrest, houts⟩ := ih hstate fun k hk => hfit k (.tail j hk)
      rw [List.filter_cons_of_pos (by simp [hpick]), run_cons_outputs, houts, hout]
      exact ⟨hrest, rfl⟩

end Transducer
