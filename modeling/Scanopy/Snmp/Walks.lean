import Scanopy.Lib.Loop
import Scanopy.Snmp.Queries

/-! The walk of one subtree of an agent, over any transport: it takes what its pages bring, drops
what it has seen, asks again after a stray answer, and says why it has stopped. -/

namespace Scanopy

open List

abbrev Oid := List ℕ

/-- The value of a varbind, with the marks that stand where an agent has nothing. -/
inductive WalkValue
  | endOfMibView
  | noSuchObject
  | noSuchInstance
  | value (v : SnmpValue)
  deriving DecidableEq

abbrev Varbind := Oid × WalkValue

inductive WalkPage
  | varbinds (page : List Varbind)
  | bulkUnsupported

/-- The failure of a request: an answer of another request, or anything else. -/
inductive WalkError
  | desync
  | other
  deriving DecidableEq

def WalkError.isDesync : WalkError → Bool
  | desync => true
  | other => false

structure SnmpWalkTransport (σ : Type*) where
  walkGetbulk : σ → (current : Oid) → (maxRepetitions : ℕ) → Except WalkError WalkPage × σ
  walkGetnext : σ → (current : Oid) → Except WalkError (List Varbind) × σ

def bulkMaxRepetitions : ℕ := 20

def maxDesyncRetries : ℕ := 2

structure PageRead where
  count : ℕ
  seen : Finset Oid
  highWater : Oid
  /-- The varbinds that `on_entry` has been called for, in this order. -/
  entries : List (Oid × SnmpValue)
  nextParts : Option Oid := none
  pageNew : ℕ := 0
  retryPage : Bool := false
  /-- Set where the loop sets `done`. -/
  stop : Option WalkStop := none

structure WalkState (σ : Type*) where
  session : σ
  currentParts : Oid
  count : ℕ := 0
  useBulk : Bool := true
  desyncRetries : ℕ := 0
  seen : Finset Oid := ∅
  highWater : Oid
  entries : List (Oid × SnmpValue) := []

structure WalkResult (σ : Type*) where
  session : σ
  entries : List (Oid × SnmpValue)
  stop : WalkStop

/-- The condition under which a varbind is a row of the table. -/
def IsBelow (base oid : Oid) : Prop := base.length < oid.length ∧ base <+: oid

instance (base oid : Oid) : Decidable (IsBelow base oid) := inferInstanceAs (Decidable (_ ∧ _))

/-- A varbind of the subtree, which is handed on if it has not been seen. -/
def PageRead.take (p : PageRead) (oid : Oid) (value : SnmpValue) : PageRead :=
  if oid ∈ p.seen then { p with nextParts := some oid }
  else
    { p with
      seen := insert oid p.seen
      highWater := if p.highWater < oid then oid else p.highWater
      entries := p.entries ++ [(oid, value)]
      count := p.count + 1
      pageNew := p.pageNew + 1
      nextParts := some oid }

def PageRead.read (base : Oid) : PageRead → List Varbind → PageRead
  | p, [] => p
  | p, (oid, .value v) :: page =>
    if IsBelow base oid then
      if maxWalkEntries ≤ (p.take oid v).count then { p.take oid v with stop := some .entryCap }
      else (p.take oid v).read base page
    else if oid ≤ p.highWater then { p with stop := some .staleResponse, retryPage := true }
    else { p with stop := some .endOfSubtree }
  | p, (_, _) :: _ => { p with stop := some .endOfMibView }

/-- After the loop: the walk goes on from the last varbind if the page has brought something. -/
def PageRead.finish (p : PageRead) : PageRead :=
  match p.stop, p.nextParts with
  | some _, _ => p
  | none, some _ =>
    if p.pageNew = 0 then { p with stop := some .nonAdvancingOid, retryPage := true } else p
  | none, none => { p with stop := some .emptyResponse }

namespace WalkState
variable {σ : Type*}

def start (base : Oid) (session : σ) : WalkState σ :=
  { session, currentParts := base, highWater := base }

def stopWith (s : WalkState σ) (stop : WalkStop) : WalkResult σ := ⟨s.session, s.entries, stop⟩

def openPage (s : WalkState σ) : PageRead :=
  { count := s.count, seen := s.seen, highWater := s.highWater, entries := s.entries }

def closePage (s : WalkState σ) (p : PageRead) : WalkState σ :=
  { s with count := p.count, seen := p.seen, highWater := p.highWater, entries := p.entries }

def request (T : SnmpWalkTransport σ) (s : WalkState σ) : Except WalkError WalkPage × σ :=
  if s.useBulk then T.walkGetbulk s.session s.currentParts bulkMaxRepetitions
  else ((T.walkGetnext s.session s.currentParts).1.map .varbinds,
    (T.walkGetnext s.session s.currentParts).2)

def settlePage (s : WalkState σ) (p : PageRead) : WalkState σ ⊕ WalkResult σ :=
  if p.retryPage && s.desyncRetries < maxDesyncRetries then
    .inl { s with desyncRetries := s.desyncRetries + 1 }
  else match p.stop with
    | some stop => .inr (s.stopWith stop)
    | none => .inl { s with currentParts := p.nextParts.getD s.currentParts }

def turnPage (base : Oid) (s : WalkState σ) (page : List Varbind) : WalkState σ ⊕ WalkResult σ :=
  if page = [] then .inr (s.stopWith .emptyResponse)
  else
    let p := (s.openPage.read base page).finish
    (s.closePage p).settlePage p

def turnReply (base : Oid) (s : WalkState σ) :
    Except WalkError WalkPage → WalkState σ ⊕ WalkResult σ
  | .ok (.varbinds page) => s.turnPage base page
  | .ok .bulkUnsupported => .inl { s with useBulk := false }
  | .error e =>
    if e.isDesync && s.desyncRetries < maxDesyncRetries then
      .inl { s with desyncRetries := s.desyncRetries + 1 }
    else .inr (s.stopWith .transport)

def turn (T : SnmpWalkTransport σ) (base : Oid) (s : WalkState σ) : WalkState σ ⊕ WalkResult σ :=
  if maxWalkEntries ≤ s.count then .inr (s.stopWith .entryCap)
  else { s with session := (s.request T).2 }.turnReply base (s.request T).1

end WalkState

/-- `walk_subtree`, for as many turns as `fuel` allows. -/
def walkSubtree {σ : Type*} (fuel : ℕ) (T : SnmpWalkTransport σ) (base : Oid) (session : σ) :
    Option (WalkResult σ) :=
  Loop.run (WalkState.turn T base) fuel (WalkState.start base session)

section Bounds
variable {base : Oid}
variable {oid : Oid} {p : PageRead} {before : ℕ}

theorem PageRead.read_invariant {P : PageRead → Prop}
    (htake : ∀ p oid v, P p → p.count < maxWalkEntries → IsBelow base oid → P (p.take oid v))
    (hstop : ∀ p stop retry, P p → P { p with stop := some stop, retryPage := retry }) (hp : P p)
    (hcount : p.count < maxWalkEntries) (page : List Varbind) :
    P (p.read base page) := by
  induction page generalizing p with
  | nil => exact hp
  | cons vb page ih =>
    obtain ⟨oid, value⟩ := vb
    cases value with
    | value v =>
      rw [read]
      split_ifs with hbelow hcap hstale
      · exact hstop _ .entryCap _ (htake p oid v hp hcount hbelow)
      · exact ih (htake p oid v hp hcount hbelow) (not_le.mp hcap)
      · exact hstop p .staleResponse true hp
      · exact hstop p .endOfSubtree _ hp
    | endOfMibView => exact hstop p .endOfMibView _ hp
    | noSuchObject => exact hstop p .endOfMibView _ hp
    | noSuchInstance => exact hstop p .endOfMibView _ hp

structure HandedOn (base : Oid) (count : ℕ) (seen : Finset Oid) (entries : List (Oid × SnmpValue)) :
    Prop where
  length_eq : entries.length = count
  count_le : count ≤ maxWalkEntries
  mem_seen : ∀ oid, oid ∈ seen ↔ oid ∈ entries.map Prod.fst
  nodup : (entries.map Prod.fst).Nodup
  below : ∀ e ∈ entries, IsBelow base e.1

theorem HandedOn.snoc {count : ℕ} {seen : Finset Oid} {entries : List (Oid × SnmpValue)}
    (h : HandedOn base count seen entries) (hcount : count < maxWalkEntries)
    (hnew : oid ∉ seen) (hbelow : IsBelow base oid) (v : SnmpValue) :
    HandedOn base (count + 1) (insert oid seen) (entries ++ [(oid, v)]) where
  length_eq := by rw [length_append, h.length_eq, length_singleton]
  count_le := hcount
  mem_seen other := by
    rw [Finset.mem_insert, h.mem_seen, map_append, mem_append, map_singleton,
      mem_singleton, or_comm]
  nodup := by
    have hfresh : oid ∉ entries.map Prod.fst := fun hmem => hnew ((h.mem_seen oid).mpr hmem)
    rw [map_append, map_singleton]
    refine nodup_append.mpr ⟨h.nodup, nodup_singleton oid, ?_⟩
    intro a ha b hb heq
    rw [heq, mem_singleton.mp hb] at ha
    exact hfresh ha
  below e he := by
    obtain he | he := mem_append.mp he
    · exact h.below e he
    · rw [mem_singleton.mp he]
      exact hbelow

structure PageRead.Ok (base : Oid) (before : ℕ) (p : PageRead) : Prop where
  handedOn : HandedOn base p.count p.seen p.entries
  count_eq : p.count = before + p.pageNew

theorem PageRead.Ok.take (h : p.Ok base before)
    (hcount : p.count < maxWalkEntries) (hbelow : IsBelow base oid) (v : SnmpValue) :
    (p.take oid v).Ok base before := by
  unfold PageRead.take
  by_cases hseen : oid ∈ p.seen
  · rw [if_pos hseen]
    exact ⟨h.handedOn, h.count_eq⟩
  · rw [if_neg hseen]
    exact ⟨h.handedOn.snoc hcount hseen hbelow v, by rw [h.count_eq, Nat.add_assoc]⟩

theorem PageRead.Ok.read (h : p.Ok base before)
    (hcount : p.count < maxWalkEntries) (page : List Varbind) : (p.read base page).Ok base before :=
  read_invariant (fun _ _ v hp hcount hbelow => hp.take hcount hbelow v)
    (fun _ _ _ hp => ⟨hp.handedOn, hp.count_eq⟩) h hcount page

theorem PageRead.Ok.finish (h : p.Ok base before) :
    p.finish.Ok base before := by
  unfold PageRead.finish
  split
  · exact h
  · split_ifs
    · exact ⟨h.handedOn, h.count_eq⟩
    · exact h
  · exact ⟨h.handedOn, h.count_eq⟩

theorem PageRead.pageNew_of_finish (hstop : p.finish.stop = none) :
    p.finish.pageNew ≠ 0 := by
  unfold PageRead.finish at hstop ⊢
  split at hstop
  · simp_all
  · split_ifs at hstop ⊢ with hnew
    exact hnew
  · exact absurd hstop nofun

namespace WalkState
variable {σ : Type*} {T : SnmpWalkTransport σ}
variable {s : WalkState σ}

def budget (s : WalkState σ) : ℕ :=
  (maxWalkEntries - s.count) + (maxDesyncRetries - s.desyncRetries) + s.useBulk.toNat

def Ok (base : Oid) (s : WalkState σ) : Prop := HandedOn base s.count s.seen s.entries

theorem ok_start (base : Oid) (session : σ) : (start base session).Ok base :=
  ⟨rfl, Nat.zero_le _, fun _ => by simp [start], nodup_nil, nofun⟩

theorem budget_le (s : WalkState σ) : s.budget ≤ maxWalkEntries + 3 := by
  have hbulk := Bool.toNat_le s.useBulk
  simp only [budget, maxDesyncRetries]
  omega

def TurnOk (base : Oid) (s : WalkState σ) (session : σ) : WalkState σ ⊕ WalkResult σ → Prop
  | .inl s' => s'.Ok base ∧ s'.session = session ∧ s'.budget < s.budget
  | .inr r => (∃ count seen, HandedOn base count seen r.entries) ∧ r.session = session

theorem turnPage_ok (hs : s.Ok base) (hcount : s.count < maxWalkEntries)
    (page : List Varbind) : TurnOk base s s.session (s.turnPage base page) := by
  unfold turnPage
  by_cases hempty : page = []
  · rw [if_pos hempty]
    exact ⟨⟨_, _, hs⟩, rfl⟩
  rw [if_neg hempty]
  have hopen : s.openPage.Ok base s.count := ⟨hs, rfl⟩
  have hpage := (hopen.read hcount page).finish
  generalize hp : (s.openPage.read base page).finish = p at hpage
  have hle : s.count ≤ p.count := hpage.count_eq ▸ Nat.le_add_right _ _
  have hcap := hpage.handedOn.count_le
  dsimp only [settlePage]
  split_ifs with hretry
  · have hleft : s.desyncRetries < maxDesyncRetries :=
      of_decide_eq_true (Bool.and_eq_true_iff.mp hretry).2
    refine ⟨hpage.handedOn, rfl, ?_⟩
    simp only [budget, closePage]
    omega
  · cases hstop : p.stop with
    | some stop => exact ⟨⟨_, _, hpage.handedOn⟩, rfl⟩
    | none =>
      have hnew : p.pageNew ≠ 0 := hp ▸ PageRead.pageNew_of_finish (hp ▸ hstop)
      have hmore : s.count < p.count := by
        rw [hpage.count_eq]
        omega
      refine ⟨hpage.handedOn, rfl, ?_⟩
      simp only [budget, closePage]
      omega

theorem useBulk_of_request (h : (s.request T).1 = .ok .bulkUnsupported) :
    s.useBulk = true := by
  by_contra hbulk
  rw [request, if_neg hbulk] at h
  cases hreply : (T.walkGetnext s.session s.currentParts).1 with
  | error e => exact absurd (hreply ▸ h) nofun
  | ok page => exact absurd (hreply ▸ h) nofun

theorem turnReply_ok (hs : s.Ok base) (hcount : s.count < maxWalkEntries)
    {reply : Except WalkError WalkPage}
    (hbulk : reply = .ok .bulkUnsupported → s.useBulk = true) :
    TurnOk base s s.session (s.turnReply base reply) := by
  cases reply with
  | error e =>
    rw [turnReply]
    split_ifs with hretry
    · have hleft : s.desyncRetries < maxDesyncRetries :=
        of_decide_eq_true (Bool.and_eq_true_iff.mp hretry).2
      refine ⟨hs, rfl, ?_⟩
      simp only [budget]
      omega
    · exact ⟨⟨_, _, hs⟩, rfl⟩
  | ok page =>
    cases page with
    | varbinds page => exact turnPage_ok hs hcount page
    | bulkUnsupported =>
      refine ⟨hs, rfl, ?_⟩
      simp only [budget, hbulk rfl, Bool.toNat_true, Bool.toNat_false]
      omega

theorem turn_ok (hs : s.Ok base) (hcount : s.count < maxWalkEntries) :
    TurnOk base s (s.request T).2 (s.turn T base) := by
  rw [turn, if_neg (not_le.mpr hcount)]
  exact turnReply_ok (s := { s with session := (s.request T).2 }) hs hcount useBulk_of_request

theorem turn_of_cap (hcount : ¬ s.count < maxWalkEntries) :
    s.turn T base = .inr (s.stopWith .entryCap) := by
  rw [turn, if_pos (not_lt.mp hcount)]

theorem turn_goesOn {s' : WalkState σ} (hs : s.Ok base) (h : s.turn T base = .inl s') :
    s'.Ok base ∧ s'.session = (s.request T).2 ∧ s'.budget < s.budget := by
  have hcount : s.count < maxWalkEntries := by
    by_contra hcap
    exact absurd (turn_of_cap (T := T) hcap ▸ h) nofun
  have hturn := turn_ok (T := T) hs hcount
  rw [h] at hturn
  exact hturn

end WalkState

theorem WalkState.exists_run {σ : Type*} (T : SnmpWalkTransport σ) {s : WalkState σ}
    (hs : s.Ok base) {fuel : ℕ} (hfuel : maxWalkEntries + 4 ≤ fuel) :
    ∃ r, Loop.run (WalkState.turn T base) fuel s = some r := by
  have hbudget := s.budget_le
  have hfuel' : s.budget < fuel := by omega
  refine Loop.exists_run_of_measure (P := WalkState.Ok base) ?_ hs hfuel'
  intro s s' hs h
  obtain ⟨hok, -, hless⟩ := WalkState.turn_goesOn hs h
  exact ⟨hok, hless⟩

end Bounds

section Requests
variable {σ : Type*}
variable {base : Oid} {T : SnmpWalkTransport σ} {s : WalkState (σ × ℕ)}

def SnmpWalkTransport.counted (T : SnmpWalkTransport σ) : SnmpWalkTransport (σ × ℕ) where
  walkGetbulk session current maxRepetitions :=
    ((T.walkGetbulk session.1 current maxRepetitions).1,
      (T.walkGetbulk session.1 current maxRepetitions).2, session.2 + 1)
  walkGetnext session current :=
    ((T.walkGetnext session.1 current).1, (T.walkGetnext session.1 current).2, session.2 + 1)

def WalkState.uncounted (s : WalkState (σ × ℕ)) : WalkState σ :=
  ⟨s.session.1, s.currentParts, s.count, s.useBulk, s.desyncRetries, s.seen, s.highWater, s.entries⟩

def WalkResult.uncounted (r : WalkResult (σ × ℕ)) : WalkResult σ :=
  ⟨r.session.1, r.entries, r.stop⟩

theorem WalkState.request_counted (T : SnmpWalkTransport σ) (s : WalkState (σ × ℕ)) :
    (s.request T.counted).1 = (s.uncounted.request T).1 ∧
      (s.request T.counted).2 = ((s.uncounted.request T).2, s.session.2 + 1) := by
  unfold request
  by_cases hbulk : s.useBulk = true
  · rw [if_pos hbulk, if_pos (show s.uncounted.useBulk = true from hbulk)]
    exact ⟨rfl, rfl⟩
  · rw [if_neg hbulk, if_neg (show ¬ s.uncounted.useBulk = true from hbulk)]
    exact ⟨rfl, rfl⟩

theorem WalkState.settlePage_uncounted (s : WalkState (σ × ℕ)) (p : PageRead) :
    s.uncounted.settlePage p = (s.settlePage p).map uncounted WalkResult.uncounted := by
  rw [settlePage, settlePage, apply_ite (Sum.map uncounted WalkResult.uncounted)]
  cases p.stop with
  | some stop => rfl
  | none => rfl

theorem WalkState.turnReply_uncounted (base : Oid) (s : WalkState (σ × ℕ))
    (reply : Except WalkError WalkPage) :
    s.uncounted.turnReply base reply =
      (s.turnReply base reply).map uncounted WalkResult.uncounted := by
  match reply with
  | .error e =>
    rw [turnReply, turnReply, apply_ite (Sum.map uncounted WalkResult.uncounted)]
    rfl
  | .ok .bulkUnsupported => rfl
  | .ok (.varbinds page) =>
    rw [turnReply, turnReply, turnPage, turnPage,
      apply_ite (Sum.map uncounted WalkResult.uncounted)]
    have hsettle := settlePage_uncounted
      (s.closePage (s.openPage.read base page).finish) (s.openPage.read base page).finish
    exact if_congr Iff.rfl rfl hsettle

theorem WalkState.turn_uncounted (T : SnmpWalkTransport σ) (base : Oid) (s : WalkState (σ × ℕ)) :
    s.uncounted.turn T base = (s.turn T.counted base).map uncounted WalkResult.uncounted := by
  obtain ⟨hreply, hsession⟩ := s.request_counted T
  unfold turn
  by_cases hcap : maxWalkEntries ≤ s.count
  · rw [if_pos hcap, if_pos (show maxWalkEntries ≤ s.uncounted.count from hcap)]
    rfl
  · rw [if_neg hcap, if_neg (show ¬ maxWalkEntries ≤ s.uncounted.count from hcap), hreply, hsession]
    exact turnReply_uncounted base { s with session := ((s.uncounted.request T).2, s.session.2 + 1) } _

theorem walkSubtree_uncounted (fuel : ℕ) (T : SnmpWalkTransport σ) (base : Oid) (session : σ) :
    walkSubtree fuel T base session =
      (walkSubtree fuel T.counted base (session, 0)).map WalkResult.uncounted :=
  Loop.run_map (WalkState.turn_uncounted T base) fuel (WalkState.start base (session, 0))

theorem WalkState.turn_counted_goesOn {s' : WalkState (σ × ℕ)} (hs : s.Ok base)
    (h : s.turn T.counted base = .inl s') :
    s'.Ok base ∧ s'.session.2 + s'.budget ≤ s.session.2 + s.budget := by
  obtain ⟨hok, hsession, hbudget⟩ := turn_goesOn hs h
  rw [(s.request_counted T).2] at hsession
  refine ⟨hok, ?_⟩
  rw [hsession]
  dsimp only
  omega

theorem WalkState.turn_counted_ends {r : WalkResult (σ × ℕ)} (hs : s.Ok base)
    (h : s.turn T.counted base = .inr r) :
    (∃ count seen, HandedOn base count seen r.entries) ∧ r.session.2 ≤ s.session.2 + s.budget := by
  by_cases hcount : s.count < maxWalkEntries
  · have hturn := turn_ok (T := T.counted) hs hcount
    rw [h] at hturn
    obtain ⟨hentries, hsession⟩ := hturn
    rw [(s.request_counted T).2] at hsession
    refine ⟨hentries, ?_⟩
    -- a request is sent only where a row can still be taken
    have hpaid : 0 < s.budget := by
      simp only [budget]
      omega
    rw [hsession]
    dsimp only
    omega
  · rw [turn_of_cap hcount] at h
    obtain rfl := Sum.inr.inj h
    exact ⟨⟨_, _, hs⟩, Nat.le_add_right _ _⟩

theorem walkSubtree_bounded (T : SnmpWalkTransport σ) (base : Oid) (session : σ) :
    ∃ r, (∀ fuel, maxWalkEntries + 4 ≤ fuel → walkSubtree fuel T base session = some r.uncounted ∧
          walkSubtree fuel T.counted base (session, 0) = some r) ∧
      r.session.2 ≤ maxWalkEntries + 3 ∧ r.entries.length ≤ maxWalkEntries ∧
      (r.entries.map Prod.fst).Nodup ∧ ∀ e ∈ r.entries, IsBelow base e.1 := by
  have hstart := WalkState.ok_start base (session, 0)
  have hbudget := (WalkState.start base (session, 0)).budget_le
  obtain ⟨r, hr⟩ := WalkState.exists_run T.counted hstart le_rfl
  have hresult : (∃ count seen, HandedOn base count seen r.entries) ∧
      r.session.2 ≤ maxWalkEntries + 3 := by
    refine Loop.invariant_of_run
      (P := fun s : WalkState (σ × ℕ) =>
        s.Ok base ∧ s.session.2 + s.budget ≤ maxWalkEntries + 3)
      (Q := fun r : WalkResult (σ × ℕ) =>
        (∃ count seen, HandedOn base count seen r.entries) ∧ r.session.2 ≤ maxWalkEntries + 3)
      ?_ ?_ ⟨hstart, (Nat.zero_add _).trans_le hbudget⟩ hr
    · rintro s s' ⟨hs, hle⟩ h
      obtain ⟨hok, hpaid⟩ := WalkState.turn_counted_goesOn hs h
      exact ⟨hok, hpaid.trans hle⟩
    · rintro s r ⟨hs, hle⟩ h
      obtain ⟨hentries, hpaid⟩ := WalkState.turn_counted_ends hs h
      exact ⟨hentries, hpaid.trans hle⟩
  obtain ⟨⟨count, seen, hentries⟩, hrequests⟩ := hresult
  refine ⟨r, fun fuel hfuel => ?_, hrequests, hentries.length_eq ▸ hentries.count_le,
    hentries.nodup, hentries.below⟩
  have hrun : walkSubtree fuel T.counted base (session, 0) = some r := Loop.run_mono hfuel hr
  exact ⟨by rw [walkSubtree_uncounted, hrun, Option.map_some], hrun⟩

end Requests

end Scanopy
