import Scanopy.Lib.Lts
import Mathlib.Algebra.Order.BigOperators.Group.Finset
import Mathlib.Data.Finset.Max

/-! Finitely many threads over read/write locks that queue their requests. A height that grows along
every wait for a holder excludes deadlock; threads that wait only for one another are one. -/

namespace RwLock

open List Option Function

inductive Mode
  | read
  | write
  deriving DecidableEq, Repr

def Compatible (m m' : Mode) : Prop := m = .read ∧ m' = .read

instance (m m' : Mode) : Decidable (Compatible m m') := inferInstanceAs (Decidable (_ ∧ _))

theorem Compatible.symm {m m' : Mode} (h : Compatible m m') : Compatible m' m := ⟨h.2, h.1⟩

theorem write_of_not_compatible {m m' : Mode} (h : ¬Compatible m m') :
    m = .write ∨ m' = .write := by
  cases m <;> cases m' <;> simp_all [Compatible]

structure Policy where
  mayGrant : List Mode → List Mode → Mode → Bool
  excludes : ∀ {held ahead m}, mayGrant held ahead m = true → ∀ m' ∈ held, Compatible m m'
  in_order : ∀ {held ahead m}, mayGrant held ahead m = true → Mode.write ∉ ahead
  serves_front : ∀ {held m}, (∀ m' ∈ held, Compatible m m') → mayGrant held [] m = true

def Policy.fifo : Policy where
  mayGrant held ahead m := ahead.isEmpty && held.all fun m' => decide (Compatible m m')
  excludes h := by
    intro m' hm'
    simp only [Bool.and_eq_true, List.all_eq_true, decide_eq_true_eq] at h
    exact h.2 m' hm'
  in_order h := by
    simp only [Bool.and_eq_true, List.isEmpty_iff] at h
    simp [h.1]
  serves_front h := by simpa using h

inductive Action (L : Type*)
  | acquire (l : L) (m : Mode)
  | release (l : L)
  deriving DecidableEq, Repr

variable {L : Type*} [DecidableEq L] {n : ℕ}

structure Request (L : Type*) where
  held : List (L × Mode)
  lock : L
  mode : Mode
  deriving DecidableEq, Repr

def Action.held : Action L → List (L × Mode) → List (L × Mode)
  | .acquire l m, held => (l, m) :: held
  | .release l, held => held.filter fun x => x.1 ≠ l

def heldAfter : List (L × Mode) → List (Action L) → List (L × Mode)
  | held, [] => held
  | held, a :: p => heldAfter (a.held held) p

def requests : List (L × Mode) → List (Action L) → List (Request L)
  | _, [] => []
  | held, .acquire l m :: p => ⟨held, l, m⟩ :: requests ((l, m) :: held) p
  | held, .release l :: p => requests (held.filter fun x => x.1 ≠ l) p

theorem heldAfter_append (held : List (L × Mode)) (p q : List (Action L)) :
    heldAfter held (p ++ q) = heldAfter (heldAfter held p) q := by
  induction p generalizing held with
  | nil => rfl
  | cons a p ih => exact ih (a.held held)

theorem requests_append (held : List (L × Mode)) (p q : List (Action L)) :
    requests held (p ++ q) = requests held p ++ requests (heldAfter held p) q := by
  induction p generalizing held with
  | nil => rfl
  | cons a p ih =>
    cases a with
    | acquire l m => exact congrArg _ (ih _)
    | release l => exact ih _

def loop (k : ℕ) (body : List (Action L)) : List (Action L) := (List.replicate k body).flatten

section Loop
variable {held : List (L × Mode)} {p body : List (Action L)}

theorem heldAfter_loop (h : heldAfter held body = held) (k : ℕ) :
    heldAfter held (loop k body) = held := by
  induction k with
  | zero => rfl
  | succ k ih =>
    have hsplit : loop (k + 1) body = body ++ loop k body := rfl
    rw [hsplit, heldAfter_append, h, ih]

theorem requests_loop_subset (h : heldAfter held body = held) (k : ℕ) :
    requests held (loop k body) ⊆ requests held body := by
  induction k with
  | zero => exact nil_subset _
  | succ k ih =>
    have hsplit : loop (k + 1) body = body ++ loop k body := rfl
    rw [hsplit, requests_append, h]
    exact append_subset.mpr ⟨List.Subset.refl _, ih⟩

theorem requests_around_loop_subset (h : heldAfter (heldAfter held p) body = heldAfter held p)
    (k : ℕ) (q : List (Action L)) :
    requests held (p ++ loop k body ++ q) ⊆ requests held (p ++ body ++ q) := by
  simp only [requests_append, heldAfter_append, heldAfter_loop h, h]
  refine append_subset.mpr ⟨?_, subset_append_right _ _⟩
  refine List.Subset.trans ?_ (subset_append_left _ _)
  refine append_subset.mpr ⟨subset_append_left _ _, ?_⟩
  exact List.Subset.trans (requests_loop_subset h k) (subset_append_right _ _)

theorem heldAfter_around_loop (h : heldAfter (heldAfter held p) body = heldAfter held p)
    (k : ℕ) (q : List (Action L)) :
    heldAfter held (p ++ loop k body ++ q) = heldAfter held (p ++ q) := by
  simp only [heldAfter_append, heldAfter_loop h]

end Loop

structure Thread (L : Type*) where
  held : List (L × Mode)
  program : List (Action L)

structure State (n : ℕ) (L : Type*) where
  thread : Fin n → Thread L
  queue : L → List (Fin n × Mode)

namespace State
variable (s : State n L) (i : Fin n) (l : L) (m : Mode)

def heldModes : List Mode :=
  (List.finRange n).flatMap fun j =>
    ((s.thread j).held.filter fun x => x.1 = l).map Prod.snd

theorem mem_heldModes : m ∈ s.heldModes l ↔ ∃ j, (l, m) ∈ (s.thread j).held := by
  simp only [heldModes, mem_flatMap, mem_finRange, true_and, List.mem_map,
    mem_filter, decide_eq_true_eq, Prod.exists, exists_eq_right]

def Waits : Prop := i ∈ (s.queue l).map Prod.fst

instance : Decidable (s.Waits i l) := inferInstanceAs (Decidable (_ ∈ _))

/-- The requests queued at `l` before the one of `i`. -/
def ahead : List (Fin n × Mode) := (s.queue l).takeWhile fun x => x.1 ≠ i

def advance (t : Thread L) : State n L := { s with thread := Function.update s.thread i t }

def request : State n L :=
  { s with queue := Function.update s.queue l (s.queue l ++ [(i, m)]) }

def dequeue : State n L :=
  { s with queue := Function.update s.queue l ((s.queue l).filter fun x => x.1 ≠ i) }

end State

def step (P : Policy) (s : State n L) (i : Fin n) : Option (State n L) :=
  match (s.thread i).program with
  | [] => none
  | .acquire l m :: p =>
    if s.Waits i l then
      if P.mayGrant (s.heldModes l) ((s.ahead i l).map Prod.snd) m then
        some ((s.dequeue i l).advance i ⟨(l, m) :: (s.thread i).held, p⟩)
      else none
    else some (s.request i l m)
  | .release l :: p =>
    some (s.advance i ⟨(s.thread i).held.filter fun x => x.1 ≠ l, p⟩)

def system (P : Policy) (programs : Fin n → List (Action L)) : Lts (State n L) (Fin n) where
  init := { thread := fun i => ⟨[], programs i⟩, queue := fun _ => [] }
  step := step P

def Finished (s : State n L) : Prop := ∀ i, (s.thread i).program = []

def CanStep (P : Policy) (s : State n L) : Prop := ∃ i, (step P s i).isSome

def DeadlockFree (P : Policy) (programs : Fin n → List (Action L)) : Prop :=
  ∀ s, (system P programs).Reachable s → Finished s ∨ CanStep P s

section Steps
variable {P : Policy} {s s' : State n L} {i : Fin n}

omit [DecidableEq L] in
@[simp] theorem State.advance_self (t : Thread L) : (s.advance i t).thread i = t :=
  update_self ..

omit [DecidableEq L] in
theorem State.advance_of_ne {j : Fin n} (h : j ≠ i) (t : Thread L) :
    (s.advance i t).thread j = s.thread j := update_of_ne h ..

theorem step_cases (h : step P s i = some s') :
    (∃ l m p, (s.thread i).program = .acquire l m :: p ∧ ¬s.Waits i l ∧ s' = s.request i l m) ∨
    (∃ l m p, (s.thread i).program = .acquire l m :: p ∧ s.Waits i l ∧
      P.mayGrant (s.heldModes l) ((s.ahead i l).map Prod.snd) m = true ∧
      s' = (s.dequeue i l).advance i ⟨(l, m) :: (s.thread i).held, p⟩) ∨
    (∃ l p, (s.thread i).program = .release l :: p ∧
      s' = s.advance i ⟨(s.thread i).held.filter fun x => x.1 ≠ l, p⟩) := by
  unfold step at h
  split at h
  · cases h
  next l m p hp =>
    split_ifs at h with hw hg
    · exact .inr (.inl ⟨l, m, p, hp, hw, hg, (some.inj h).symm⟩)
    · exact .inl ⟨l, m, p, hp, hw, (some.inj h).symm⟩
  next l p hp => exact .inr (.inr ⟨l, p, hp, (some.inj h).symm⟩)

theorem blocked_of_step_eq_none (h : step P s i = none) :
    (s.thread i).program = [] ∨ ∃ l m p, (s.thread i).program = .acquire l m :: p ∧
      s.Waits i l ∧ P.mayGrant (s.heldModes l) ((s.ahead i l).map Prod.snd) m = false := by
  unfold step at h
  split at h
  next hp => exact .inl hp
  next l m p hp =>
    split_ifs at h with hw hg
    exact .inr ⟨l, m, p, hp, hw, by simpa using hg⟩
  next => cases h

end Steps

section Invariant
variable {P : Policy} {programs : Fin n → List (Action L)} {s : State n L}

/-- Nobody excludes the other over a lock that both hold. -/
def Coexist (a b : List (L × Mode)) : Prop :=
  ∀ l m m', (l, m) ∈ a → (l, m') ∈ b → Compatible m m'

def Asks (programs : Fin n → List (Action L)) (r : Request L) : Prop :=
  ∃ i, r ∈ requests [] (programs i)

structure Inv (programs : Fin n → List (Action L)) (s : State n L) : Prop where
  ahead : ∀ i, requests (s.thread i).held (s.thread i).program ⊆ requests [] (programs i)
  balance : ∀ i, heldAfter (s.thread i).held (s.thread i).program = heldAfter [] (programs i)
  obtained : ∀ i, ∀ x ∈ (s.thread i).held, ∃ r, Asks programs r ∧ r.lock = x.1 ∧ r.mode = x.2
  exclusive : ∀ i j, i ≠ j → Coexist (s.thread i).held (s.thread j).held
  queued : ∀ l, ∀ x ∈ s.queue l, ∃ p, (s.thread x.1).program = .acquire l x.2 :: p

theorem inv_init : Inv programs (system P programs).init where
  ahead _ := List.Subset.refl _
  balance _ := rfl
  obtained _ _ hx := nomatch hx
  exclusive _ _ _ _ _ _ hx := nomatch hx
  queued _ _ hx := nomatch hx

theorem Inv.request (h : Inv programs s) {i : Fin n} {l : L} {m : Mode} {p : List (Action L)}
    (hp : (s.thread i).program = .acquire l m :: p) : Inv programs (s.request i l m) where
  ahead := h.ahead
  balance := h.balance
  obtained := h.obtained
  exclusive := h.exclusive
  queued := by
    intro l' x hx
    by_cases hl : l' = l
    · subst hl
      simp only [State.request, update_self, mem_append, mem_singleton] at hx
      rcases hx with hx | rfl
      · exact h.queued _ x hx
      · exact ⟨p, hp⟩
    · simp only [State.request, update_of_ne hl] at hx
      exact h.queued _ x hx

/-- A thread moves on to `t`, while the queues lose what it had waited for. -/
theorem Inv.advance (h : Inv programs s) {q : L → List (Fin n × Mode)} {i : Fin n} {t : Thread L}
    (hahead : requests t.held t.program ⊆ requests (s.thread i).held (s.thread i).program)
    (hbalance : heldAfter t.held t.program = heldAfter (s.thread i).held (s.thread i).program)
    (hobtained : ∀ x ∈ t.held, ∃ r, Asks programs r ∧ r.lock = x.1 ∧ r.mode = x.2)
    (hexclusive : ∀ j, j ≠ i → Coexist t.held (s.thread j).held)
    (hq : ∀ l, ∀ x ∈ q l, x ∈ s.queue l ∧ x.1 ≠ i) :
    Inv programs ({ s with queue := q }.advance i t) where
  ahead j := by
    by_cases hj : j = i
    · subst hj
      rw [State.advance_self]
      exact List.Subset.trans hahead (h.ahead j)
    · rw [State.advance_of_ne hj]
      exact h.ahead j
  balance j := by
    by_cases hj : j = i
    · subst hj
      rw [State.advance_self]
      exact hbalance.trans (h.balance j)
    · rw [State.advance_of_ne hj]
      exact h.balance j
  obtained j := by
    by_cases hj : j = i
    · subst hj
      rw [State.advance_self]
      exact hobtained
    · rw [State.advance_of_ne hj]
      exact h.obtained j
  exclusive j k hjk := by
    by_cases hj : j = i
    · subst hj
      rw [State.advance_self, State.advance_of_ne hjk.symm]
      exact hexclusive k hjk.symm
    · rw [State.advance_of_ne hj]
      by_cases hk : k = i
      · subst hk
        rw [State.advance_self]
        exact fun l m m' hm hm' => (hexclusive j hj l m' m hm' hm).symm
      · rw [State.advance_of_ne hk]
        exact h.exclusive j k hjk
  queued l x hx := by
    obtain ⟨hmem, hne⟩ := hq l x hx
    rw [State.advance_of_ne hne]
    exact h.queued l x hmem

theorem Inv.not_queued (h : Inv programs s) {i : Fin n} {l : L} {p : List (Action L)}
    (hp : (s.thread i).program = .release l :: p) {l' : L} {x : Fin n × Mode}
    (hx : x ∈ s.queue l') : x.1 ≠ i := by
  rintro rfl
  obtain ⟨q, hq⟩ := h.queued l' x hx
  exact nomatch hp.symm.trans hq

theorem Inv.step (h : Inv programs s) {s' : State n L} {i : Fin n}
    (hstep : step P s i = some s') : Inv programs s' := by
  obtain ⟨l, m, p, hp, -, rfl⟩ | ⟨l, m, p, hp, -, hgrant, rfl⟩ | ⟨l, p, hp, rfl⟩ := step_cases hstep
  · exact h.request hp
  · -- the granted request is one the thread came to, and shares with every holder
    have hasks : Asks programs ⟨(s.thread i).held, l, m⟩ :=
      ⟨i, h.ahead i (by rw [hp]; exact mem_cons_self)⟩
    refine h.advance ?_ ?_ ?_ ?_ ?_
    · rw [hp]
      exact subset_cons_self _ _
    · rw [hp]
      rfl
    · intro x hx
      rcases mem_cons.mp hx with rfl | hx
      · exact ⟨_, hasks, rfl, rfl⟩
      · exact h.obtained i x hx
    · intro j hj l' m₁ m₂ h₁ h₂
      rcases mem_cons.mp h₁ with h₁ | h₁
      · cases h₁
        exact P.excludes hgrant m₂ ((s.mem_heldModes l m₂).mpr ⟨j, h₂⟩)
      · exact h.exclusive i j hj.symm l' m₁ m₂ h₁ h₂
    · intro l' x hx
      by_cases hl : l' = l
      · subst hl
        simpa using hx
      · simp only [update_of_ne hl] at hx
        refine ⟨hx, ?_⟩
        rintro rfl
        obtain ⟨q, hq⟩ := h.queued l' x hx
        rw [hp] at hq
        cases hq
        exact hl rfl
  · refine h.advance ?_ ?_ ?_ ?_ fun l' x hx => ⟨hx, h.not_queued hp hx⟩
    · rw [hp]
      exact List.Subset.refl _
    · rw [hp]
      rfl
    · intro x hx
      exact h.obtained i x (mem_of_mem_filter hx)
    · intro j hj l' m₁ m₂ h₁ h₂
      exact h.exclusive i j hj.symm l' m₁ m₂ (mem_of_mem_filter h₁) h₂

theorem inv_of_reachable (hs : (system P programs).Reachable s) : Inv programs s :=
  hs.invariant inv_init fun _ _ _ _ h _ hstep => h.step hstep

end Invariant

section Height
variable {P : Policy} {programs : Fin n → List (Action L)} {s : State n L}

theorem exists_excluded (h : Inv programs s) (hstuck : ¬CanStep P s) {i : Fin n} {l : L}
    (hw : s.Waits i l) : ∃ f m p j m', (s.thread f).program = .acquire l m :: p ∧
      (l, m') ∈ (s.thread j).held ∧ ¬Compatible m m' := by
  obtain ⟨x, q, hq⟩ : ∃ x q, s.queue l = x :: q :=
    exists_cons_of_ne_nil fun hnil => by simp [State.Waits, hnil] at hw
  obtain ⟨p, hp⟩ := h.queued l x (hq ▸ mem_cons_self)
  have hfront : s.ahead x.1 l = [] := by simp [State.ahead, hq]
  have hwait : s.Waits x.1 l := by simp [State.Waits, hq]
  by_contra! hshare
  refine hstuck ⟨x.1, ?_⟩
  have hgrant : P.mayGrant (s.heldModes l) ((s.ahead x.1 l).map Prod.snd) x.2 = true := by
    rw [hfront]
    refine P.serves_front fun m' hm' => ?_
    obtain ⟨j, hj⟩ := (s.mem_heldModes l m').mp hm'
    exact hshare x.1 x.2 p j m' hp hj
  simp [step, hp, hwait, hgrant]

theorem asks_of_program (h : Inv programs s) {i : Fin n} {l : L} {m : Mode}
    {p : List (Action L)} (hp : (s.thread i).program = .acquire l m :: p) :
    Asks programs ⟨(s.thread i).held, l, m⟩ :=
  ⟨i, h.ahead i (by rw [hp]; exact mem_cons_self)⟩

/-- The height of the request that a thread makes next. -/
def frontHeight (height : Request L → ℕ) (t : Thread L) : ℕ :=
  match t.program with
  | .acquire l m :: _ => height ⟨t.held, l, m⟩
  | _ => 0

theorem frontHeight_of_program {height : Request L → ℕ} {t : Thread L} {l : L} {m : Mode}
    {p : List (Action L)} (hp : t.program = .acquire l m :: p) :
    frontHeight height t = height ⟨t.held, l, m⟩ := by
  rw [frontHeight, hp]

/-- Threads that release what they take cannot deadlock when a height of the requests grows from
every request to those of the threads that hold its lock, as far as the lock is ever taken for
writing. -/
theorem deadlockFree_of_height (hbalance : ∀ i, heldAfter [] (programs i) = [])
    (hfresh : ∀ r, Asks programs r → ∀ m, (r.lock, m) ∉ r.held) (height : Request L → ℕ)
    (hclimb : ∀ r t m, Asks programs r → Asks programs t → (r.lock, m) ∈ t.held →
      Coexist r.held t.held → (∃ w, Asks programs w ∧ w.lock = r.lock ∧ w.mode = .write) →
      height r < height t) : DeadlockFree P programs := by
  intro s hs
  have h := inv_of_reachable hs
  by_contra! hdead
  obtain ⟨hunfinished, hstuck⟩ := hdead
  have hblocked : ∀ i, (s.thread i).program ≠ [] → ∃ l m p,
      (s.thread i).program = .acquire l m :: p ∧ s.Waits i l := by
    intro i hi
    have hnone : step P s i = none := by
      by_contra hsome
      exact hstuck ⟨i, isSome_iff_ne_none.mpr hsome⟩
    obtain hp | ⟨l, m, p, hp, hw, -⟩ := blocked_of_step_eq_none hnone
    · exact absurd hp hi
    · exact ⟨l, m, p, hp, hw⟩
  -- the highest request of an unfinished thread waits for a holder that waits higher still
  obtain ⟨i₀, hi₀⟩ : ∃ i, (s.thread i).program ≠ [] := by
    simpa [Finished] using hunfinished
  obtain ⟨i, hi, hmax⟩ := (Finset.univ.filter fun i => (s.thread i).program ≠ []).exists_max_image
    (fun i => frontHeight height (s.thread i)) ⟨i₀, by simpa using hi₀⟩
  obtain ⟨l, m, p, hp, hw⟩ := hblocked i (by simpa using hi)
  obtain ⟨f, mf, pf, j, mj, hpf, hj, hexcl⟩ := exists_excluded h hstuck hw
  have hne : i ≠ j := by
    rintro rfl
    exact hfresh _ (asks_of_program h hp) mj hj
  have hpj : (s.thread j).program ≠ [] := by
    intro hnil
    have hempty : (s.thread j).held = [] := by
      have := h.balance j
      rwa [hnil, hbalance j] at this
    rw [hempty] at hj
    cases hj
  obtain ⟨l', m', p', hp', -⟩ := hblocked j hpj
  have hwrite : ∃ w, Asks programs w ∧ w.lock = l ∧ w.mode = .write := by
    rcases write_of_not_compatible hexcl with rfl | rfl
    · exact ⟨_, asks_of_program h hpf, rfl, rfl⟩
    · exact h.obtained j _ hj
  have hlt := hclimb _ _ mj (asks_of_program h hp) (asks_of_program h hp') hj
    (h.exclusive i j hne) hwrite
  have hle := hmax j (by simpa using hpj)
  rw [frontHeight_of_program hp, frontHeight_of_program hp'] at hle
  omega

end Height

section Frame
variable {P : Policy} {s s' : State n L} {t : Fin n}

theorem queue_of_step (h : step P s t = some s') (l : L) : s'.queue l = s.queue l ∨
    (∃ m, s'.queue l = s.queue l ++ [(t, m)]) ∨
      s'.queue l = (s.queue l).filter fun x => x.1 ≠ t := by
  obtain ⟨l', m, p, -, -, rfl⟩ | ⟨l', m, p, -, -, -, rfl⟩ | ⟨l', p, -, rfl⟩ := step_cases h
  · by_cases hl : l = l'
    · subst hl
      exact .inr (.inl ⟨m, update_self ..⟩)
    · exact .inl (update_of_ne hl ..)
  · by_cases hl : l = l'
    · subst hl
      exact .inr (.inr (update_self ..))
    · exact .inl (update_of_ne hl ..)
  · exact .inl rfl

theorem thread_of_step (h : step P s t = some s') {i : Fin n} (hi : i ≠ t) :
    s'.thread i = s.thread i := by
  obtain ⟨l, m, p, -, -, rfl⟩ | ⟨l, m, p, -, -, -, rfl⟩ | ⟨l, p, -, rfl⟩ := step_cases h
  · rfl
  · exact State.advance_of_ne hi _
  · exact State.advance_of_ne hi _

theorem waits_of_step (h : step P s t = some s') {i : Fin n} (hi : i ≠ t) (l : L) :
    s'.Waits i l ↔ s.Waits i l := by
  unfold State.Waits
  obtain hq | ⟨m, hq⟩ | hq := queue_of_step h l <;> rw [hq]
  · simp [hi]
  · simp only [List.mem_map, mem_filter, decide_eq_true_eq]
    exact ⟨fun ⟨x, hx, e⟩ => ⟨x, hx.1, e⟩, fun ⟨x, hx, e⟩ => ⟨x, ⟨hx, e ▸ hi⟩, e⟩⟩

theorem mem_takeWhile_filter {α : Type*} (f g : α → Bool) {x : α} (hf : f x = true) {xs : List α}
    (hx : x ∈ xs.takeWhile g) : x ∈ (xs.filter f).takeWhile g := by
  induction xs with
  | nil => exact nomatch hx
  | cons y ys ih =>
    rw [takeWhile_cons] at hx
    split_ifs at hx with hy
    · rcases mem_cons.mp hx with rfl | hx
      · rw [filter_cons_of_pos hf, takeWhile_cons_of_pos hy]
        exact mem_cons_self
      · by_cases hfy : f y = true
        · rw [filter_cons_of_pos hfy, takeWhile_cons_of_pos hy]
          exact mem_cons_of_mem _ (ih hx)
        · rw [filter_cons_of_neg hfy]
          exact ih hx
    · exact nomatch hx

theorem ahead_of_step (h : step P s t = some s') {i j : Fin n} (hj : j ≠ t) {l : L} {m : Mode}
    (hm : (j, m) ∈ s.ahead i l) : (j, m) ∈ s'.ahead i l := by
  unfold State.ahead at hm ⊢
  obtain hq | ⟨m', hq⟩ | hq := queue_of_step h l <;> rw [hq]
  · exact hm
  · rw [takeWhile_append]
    split_ifs
    · exact mem_append_left _ ((List.takeWhile_prefix _).subset hm)
    · exact hm
  · exact mem_takeWhile_filter _ _ (by simpa using hj) hm

end Frame

section Deadlock
variable {P : Policy} {programs : Fin n → List (Action L)} {s s' : State n L} {K : Set (Fin n)}

/-- Every thread of `K` waits for a lock that a thread of `K` holds against it, or behind a
writer of `K`. -/
def Knot (s : State n L) (K : Set (Fin n)) : Prop :=
  ∀ i ∈ K, ∃ l m p, (s.thread i).program = .acquire l m :: p ∧ s.Waits i l ∧
    ((∃ j ∈ K, ∃ m', (l, m') ∈ (s.thread j).held ∧ ¬Compatible m m') ∨
      ∃ j ∈ K, (j, Mode.write) ∈ s.ahead i l)

theorem Knot.step_eq_none (h : Knot s K) {i : Fin n} (hi : i ∈ K) : step P s i = none := by
  obtain ⟨l, m, p, hp, hw, hblock⟩ := h i hi
  have hdeny : ¬P.mayGrant (s.heldModes l) ((s.ahead i l).map Prod.snd) m = true := by
    intro hgrant
    obtain ⟨j, -, m', hj, hexcl⟩ | ⟨j, -, hj⟩ := hblock
    · exact hexcl (P.excludes hgrant m' ((s.mem_heldModes l m').mpr ⟨j, hj⟩))
    · exact P.in_order hgrant (List.mem_map.mpr ⟨_, hj, rfl⟩)
  simp [step, hp, hw, hdeny]

theorem Knot.step (h : Knot s K) {t : Fin n} (hstep : step P s t = some s') : Knot s' K := by
  have hne : ∀ i ∈ K, i ≠ t := by
    rintro i hi rfl
    rw [h.step_eq_none hi] at hstep
    exact nomatch hstep
  intro i hi
  obtain ⟨l, m, p, hp, hw, hblock⟩ := h i hi
  refine ⟨l, m, p, ?_, (waits_of_step hstep (hne i hi) l).mpr hw, ?_⟩
  · rw [thread_of_step hstep (hne i hi)]
    exact hp
  · obtain ⟨j, hj, m', hm', hexcl⟩ | ⟨j, hj, hahead⟩ := hblock
    · refine .inl ⟨j, hj, m', ?_, hexcl⟩
      rw [thread_of_step hstep (hne j hj)]
      exact hm'
    · exact .inr ⟨j, hj, ahead_of_step hstep (hne j hj) hahead⟩

/-- The steps a thread still has to make: an acquisition takes a request and a grant. -/
def remaining (s : State n L) (i : Fin n) : ℕ :=
  match (s.thread i).program with
  | [] => 0
  | .acquire l _ :: p => 2 * p.length + if s.Waits i l then 1 else 2
  | .release _ :: p => 2 * p.length + 2

omit [DecidableEq L] in
theorem remaining_le (s : State n L) (i : Fin n) :
    remaining s i ≤ 2 * (s.thread i).program.length := by
  unfold remaining
  split
  next hp => simp [hp]
  next hp => rw [hp, length_cons]; split_ifs <;> omega
  next hp => rw [hp, length_cons]; omega

theorem remaining_of_step_of_ne {t : Fin n} (h : RwLock.step P s t = some s') {i : Fin n}
    (hi : i ≠ t) : remaining s' i = remaining s i := by
  unfold remaining
  rw [thread_of_step h hi]
  split
  · rfl
  · simp only [waits_of_step h hi]
  · rfl

theorem remaining_of_step {t : Fin n} (h : RwLock.step P s t = some s') :
    remaining s' t < remaining s t := by
  obtain ⟨l, m, p, hp, hw, rfl⟩ | ⟨l, m, p, hp, hw, -, rfl⟩ | ⟨l, p, hp, rfl⟩ := step_cases h
  · have hp' : ((s.request t l m).thread t).program = .acquire l m :: p := hp
    have hw' : (s.request t l m).Waits t l := by simp [State.Waits, State.request]
    simp only [remaining, hp, hp', hw, hw', if_true, if_false]
    omega
  · have hle := remaining_le ((s.dequeue t l).advance t ⟨(l, m) :: (s.thread t).held, p⟩) t
    rw [State.advance_self] at hle
    have hold : remaining s t = 2 * p.length + 1 := by simp only [remaining, hp, hw, if_true]
    dsimp only at hle
    omega
  · have hle := remaining_le (s.advance t ⟨(s.thread t).held.filter fun x => x.1 ≠ l, p⟩) t
    rw [State.advance_self] at hle
    have hold : remaining s t = 2 * p.length + 2 := by simp only [remaining, hp]
    dsimp only at hle
    omega

theorem not_deadlockFree_of_knot (hs : (system P programs).Reachable s) (hK : Knot s K)
    (hne : K.Nonempty) : ¬DeadlockFree P programs := by
  intro hfree
  induction hwork : ∑ i, remaining s i using Nat.strong_induction_on generalizing s with
  | _ work ih =>
    obtain ⟨i, hi⟩ := hne
    obtain hdone | ⟨t, ht⟩ := hfree s hs
    · obtain ⟨l, m, p, hp, -⟩ := hK i hi
      exact nomatch hp.symm.trans (hdone i)
    · obtain ⟨s', hstep⟩ := isSome_iff_exists.mp ht
      have hlt : ∑ i, remaining s' i < ∑ i, remaining s i := by
        refine Finset.sum_lt_sum (fun j _ => ?_) ⟨t, Finset.mem_univ t, remaining_of_step hstep⟩
        by_cases hj : j = t
        · subst hj
          exact (remaining_of_step hstep).le
        · exact (remaining_of_step_of_ne hstep hj).le
      exact ih _ (hwork ▸ hlt) (.step hs trivial hstep) (hK.step hstep) rfl

end Deadlock

section Alone
variable {P : Policy} {programs : Fin n → List (Action L)} {s : State n L} {i : Fin n}

theorem reachable_request (hs : (system P programs).Reachable s) {l : L} {m : Mode}
    {p : List (Action L)} (hp : (s.thread i).program = .acquire l m :: p) (hw : ¬s.Waits i l) :
    (system P programs).Reachable (s.request i l m) :=
  .step (l := i) hs trivial (by simp [system, step, hp, hw])

theorem reachable_acquire (hs : (system P programs).Reachable s) (hq : ∀ l, s.queue l = [])
    {l : L} {m : Mode} {p : List (Action L)} (hp : (s.thread i).program = .acquire l m :: p)
    (hfree : ∀ j m', (l, m') ∈ (s.thread j).held → Compatible m m') :
    (system P programs).Reachable (s.advance i ⟨(l, m) :: (s.thread i).held, p⟩) := by
  have hs₁ := reachable_request hs hp (by simp [State.Waits, hq])
  refine .step (l := i) hs₁ trivial ?_
  have hp₁ : ((s.request i l m).thread i).program = .acquire l m :: p := hp
  have hw₁ : (s.request i l m).Waits i l := by simp [State.Waits, State.request]
  have hahead : (s.request i l m).ahead i l = [] := by simp [State.ahead, State.request, hq]
  have hgrant : P.mayGrant ((s.request i l m).heldModes l) [] m = true := by
    refine P.serves_front fun m' hm' => ?_
    obtain ⟨j, hj⟩ := (State.mem_heldModes _ l m').mp hm'
    exact hfree j m' hj
  have hqueue : ((s.request i l m).dequeue i l).queue = s.queue := by
    funext l'
    by_cases hl : l' = l
    · subst hl
      simp [State.request, State.dequeue, hq]
    · simp [State.request, State.dequeue, update_of_ne hl]
  have hdequeue : (s.request i l m).dequeue i l = s := by
    cases s
    exact congrArg _ hqueue
  simp only [system, step, hp₁, hw₁, hahead, map_nil, hgrant, if_true, hdequeue]
  rfl

/-- With nobody queued, a thread runs through `p` by itself if what the others hold does not
exclude it. -/
theorem reachable_advance (hs : (system P programs).Reachable s) (hq : ∀ l, s.queue l = [])
    {held others : List (L × Mode)} {p q : List (Action L)} (ht : s.thread i = ⟨held, p ++ q⟩)
    (hfresh : ∀ r ∈ requests held p, ∀ m, (r.lock, m) ∉ r.held)
    (hothers : ∀ j, j ≠ i → (s.thread j).held ⊆ others)
    (hfree : ∀ r ∈ requests held p, ∀ x ∈ others, x.1 = r.lock → Compatible r.mode x.2) :
    (system P programs).Reachable (s.advance i ⟨heldAfter held p, q⟩) := by
  induction p generalizing s held with
  | nil =>
    have hsame : s.advance i ⟨held, q⟩ = s := by
      have hthread : (⟨held, q⟩ : Thread L) = s.thread i := ht.symm
      rw [hthread]
      cases s
      exact congrArg (State.mk · _) (update_eq_self ..)
    change (system P programs).Reachable (s.advance i ⟨held, q⟩)
    rwa [hsame]
  | cons a p ih =>
    suffices hfirst : (system P programs).Reachable (s.advance i ⟨a.held held, p ++ q⟩) by
      have hlast : ∀ t u : Thread L, (s.advance i t).advance i u = s.advance i u :=
        fun t u => congrArg (State.mk · _) (update_idem ..)
      have hrest := ih hfirst hq (State.advance_self _) ?_ ?_ ?_
      · rwa [hlast] at hrest
      · cases a with
        | acquire l m => exact fun r hr => hfresh r (mem_cons_of_mem _ hr)
        | release l => exact hfresh
      · intro j hj
        rw [State.advance_of_ne hj]
        exact hothers j hj
      · cases a with
        | acquire l m => exact fun r hr => hfree r (mem_cons_of_mem _ hr)
        | release l => exact hfree
    have hprogram : (s.thread i).program = a :: (p ++ q) := congrArg Thread.program ht
    have hheld : held = (s.thread i).held := (congrArg Thread.held ht).symm
    cases a with
    | acquire l m =>
      rw [hheld] at hfresh hfree ⊢
      refine reachable_acquire hs hq hprogram fun j m' hj => ?_
      by_cases hji : j = i
      · subst hji
        exact absurd hj (hfresh ⟨_, l, m⟩ mem_cons_self m')
      · exact hfree ⟨_, l, m⟩ mem_cons_self _ (hothers j hji hj) rfl
    | release l =>
      rw [hheld]
      exact .step (l := i) hs trivial (by simp only [system, step, hprogram, Action.held])

end Alone

end RwLock
