import Scanopy.Snmp.Walks

/-! Walks of agents that answer from a table. A valid page lists the rows that follow its key
without a gap, and marks the end of the view only behind the last one. -/

namespace Scanopy

open List Paging

structure MibTable where
  rows : List (Oid × SnmpValue)
  sorted : rows.Pairwise fun a b => a.1 < b.1

namespace MibTable

/-- The pages that answer a request from `start`, by either operation. -/
inductive Answers (mib : MibTable) : (start : Oid) → List Varbind → Prop
  | stop (start : Oid) : Answers mib start []
  | row {start : Oid} {row : Oid × SnmpValue} {rest : List (Oid × SnmpValue)}
      {page : List Varbind} (h : above mib.rows start = row :: rest)
      (hpage : Answers mib row.1 page) : Answers mib start ((row.1, .value row.2) :: page)
  | marks {start : Oid} {marks : List Oid} (h : above mib.rows start = []) :
      Answers mib start (marks.map fun oid => (oid, .endOfMibView))

def subtree (mib : MibTable) (base : Oid) : List (Oid × SnmpValue) :=
  mib.rows.filter fun row => IsBelow base row.1

def unread (mib : MibTable) (base start : Oid) : List (Oid × SnmpValue) :=
  (above mib.rows start).filter fun row => IsBelow base row.1

variable {mib : MibTable} {base start : Oid} {row : Oid × SnmpValue}
  {rest : List (Oid × SnmpValue)} {page : List Varbind}

theorem mem_unread : row ∈ mib.unread base start ↔
    row ∈ mib.rows ∧ start < row.1 ∧ IsBelow base row.1 := by
  simp [unread, mem_above, and_assoc]

theorem mem_subtree : row ∈ mib.subtree base ↔ row ∈ mib.rows ∧ IsBelow base row.1 := by
  simp [subtree]

end MibTable

theorem lt_of_isBelow {base oid : Oid} (h : IsBelow base oid) : base < oid := by
  obtain ⟨hlength, suffix, rfl⟩ := h
  refine lt_append base fun hnil => ?_
  rw [hnil, append_nil] at hlength
  exact lt_irrefl _ hlength

theorem lt_of_not_isBelow {base oid row : Oid} (hlt : base < oid) (h : ¬ IsBelow base oid)
    (hrow : IsBelow base row) : row < oid := by
  obtain ⟨-, suffix, rfl⟩ := hrow
  refine append_lt_of_not_isPrefix hlt.le (fun hpre => h ⟨?_, hpre⟩) suffix
  obtain ⟨tail, rfl⟩ := hpre
  have htail : tail ≠ [] := fun hnil => by simp [hnil] at hlt
  have := length_pos_iff.mpr htail
  rw [length_append]
  omega

namespace MibTable
variable {mib : MibTable} {base start : Oid} {row : Oid × SnmpValue}
  {rest : List (Oid × SnmpValue)}

theorem lt_of_above_eq_cons (h : above mib.rows start = row :: rest) : start < row.1 :=
  (mem_above.mp (h ▸ mem_cons_self)).2

theorem unread_of_isBelow (h : above mib.rows start = row :: rest) (hbelow : IsBelow base row.1) :
    mib.unread base start = row :: mib.unread base row.1 := by
  rw [unread, unread, h, above_of_above_eq_cons mib.sorted h,
    filter_cons_of_pos (by simpa using hbelow)]

theorem unread_of_not_isBelow (hbase : base ≤ start) (h : above mib.rows start = row :: rest)
    (hbelow : ¬ IsBelow base row.1) : mib.unread base start = [] := by
  refine eq_nil_iff_forall_not_mem.mpr fun other hother => ?_
  obtain ⟨hmem, hlt, hother⟩ := mem_unread.mp hother
  have hbehind := lt_of_not_isBelow (hbase.trans_lt (lt_of_above_eq_cons h)) hbelow hother
  obtain rfl | hle := le_of_above_eq_cons mib.sorted h hmem hlt
  · exact hbelow hother
  · exact lt_asymm hle hbehind

theorem unread_of_above_eq_nil (h : above mib.rows start = []) :
    mib.unread base start = [] := by
  rw [unread, h, filter_nil]

end MibTable

section Conformant
variable {mib : MibTable} {base start : Oid} {target : List (Oid × SnmpValue)}
variable {p : PageRead}

/-- The walk has handed on what precedes `start`, and nothing else of the target. -/
structure PageRead.Synced (mib : MibTable) (base : Oid) (target : List (Oid × SnmpValue))
    (start : Oid) (p : PageRead) : Prop where
  base_le : base ≤ start
  highWater_le : p.highWater ≤ start
  seen_le : ∀ oid ∈ p.seen, oid ≤ start
  entries_append : p.entries ++ mib.unread base start = target
  count_eq : p.count = p.entries.length
  retryPage_eq : p.retryPage = false

theorem PageRead.take_of_not_mem {oid : Oid} (h : oid ∉ p.seen) (v : SnmpValue) :
    p.take oid v =
      { p with
        seen := insert oid p.seen
        highWater := if p.highWater < oid then oid else p.highWater
        entries := p.entries ++ [(oid, v)]
        count := p.count + 1
        pageNew := p.pageNew + 1
        nextParts := some oid } := by
  rw [take, if_neg h]

theorem PageRead.Synced.take (h : p.Synced mib base target start)
    {row : Oid × SnmpValue} {rest : List (Oid × SnmpValue)}
    (habove : above mib.rows start = row :: rest) (hbelow : IsBelow base row.1) :
    (p.take row.1 row.2).Synced mib base target row.1 := by
  have hlt := MibTable.lt_of_above_eq_cons habove
  have hnew : row.1 ∉ p.seen := fun hmem => not_lt.mpr (h.seen_le _ hmem) hlt
  rw [take_of_not_mem hnew]
  refine ⟨h.base_le.trans hlt.le, ?_, fun oid hoid => ?_, ?_, ?_, h.retryPage_eq⟩
  · rw [if_pos (h.highWater_le.trans_lt hlt)]
  · obtain rfl | hoid := Finset.mem_insert.mp hoid
    · exact le_rfl
    · exact (h.seen_le oid hoid).trans hlt.le
  · rw [← h.entries_append, MibTable.unread_of_isBelow habove hbelow, append_assoc]
    rfl
  · rw [length_append, h.count_eq, length_singleton]

def PageRead.ReadsOn (mib : MibTable) (base : Oid) (target : List (Oid × SnmpValue))
    (fresh : ℕ) (p : PageRead) : Prop :=
  (p.stop = none ∧ fresh ≤ p.pageNew ∧
      ∃ next, p.nextParts = some next ∧ p.Synced mib base target next) ∨
    ∃ stop, p.stop = some stop ∧ stop.isComplete = true ∧ p.retryPage = false ∧ p.entries = target

theorem PageRead.Synced.read {page : List Varbind} (hpage : mib.Answers start page)
    (h : p.Synced mib base target start) (hstop : p.stop = none)
    (hnext : p.nextParts = some start ∨ page ≠ []) (htarget : target.length < maxWalkEntries) :
    (p.read base page).ReadsOn mib base target (p.pageNew + page.length) := by
  induction hpage generalizing p with
  | stop start => exact .inl ⟨hstop, le_rfl, start, hnext.resolve_right (· rfl), h⟩
  | @row start row rest page habove hpage ih =>
    have hlt := MibTable.lt_of_above_eq_cons habove
    rw [PageRead.read]
    by_cases hbelow : IsBelow base row.1
    · have htake := h.take habove hbelow
      have hnew : row.1 ∉ p.seen := fun hmem => not_lt.mpr (h.seen_le _ hmem) hlt
      have hcap : ¬ maxWalkEntries ≤ (p.take row.1 row.2).count := by
        have hlength := congrArg List.length htake.entries_append
        rw [length_append, ← htake.count_eq] at hlength
        omega
      have hfresh : (p.take row.1 row.2).pageNew = p.pageNew + 1 := by rw [take_of_not_mem hnew]
      have hrest := ih htake (by rw [take_of_not_mem hnew]; exact hstop)
        (.inl (by rw [take_of_not_mem hnew]))
      rw [if_pos hbelow, if_neg hcap, length_cons, Nat.add_comm page.length, ← Nat.add_assoc,
        ← hfresh]
      exact hrest
    · -- the page has left the subtree, which lies behind the walk as a whole
      have hdone := MibTable.unread_of_not_isBelow h.base_le habove hbelow
      have hentries : p.entries = target := by
        rw [← h.entries_append, hdone, append_nil]
      rw [if_neg hbelow, if_neg (not_le.mpr (h.highWater_le.trans_lt hlt))]
      exact .inr ⟨.endOfSubtree, rfl, rfl, h.retryPage_eq, hentries⟩
  | @marks start marks habove =>
    cases marks with
    | nil => exact .inl ⟨hstop, le_rfl, start, hnext.resolve_right (· rfl), h⟩
    | cons oid marks =>
      have hentries : p.entries = target := by
        rw [← h.entries_append, MibTable.unread_of_above_eq_nil habove, append_nil]
      exact .inr ⟨.endOfMibView, rfl, rfl, h.retryPage_eq, hentries⟩

structure Conformant {σ : Type*} (mib : MibTable) (T : SnmpWalkTransport σ) : Prop where
  getbulk : ∀ session current maxRepetitions,
    (T.walkGetbulk session current maxRepetitions).1 = .ok .bulkUnsupported ∨
      ∃ page, page ≠ [] ∧ mib.Answers current page ∧
        (T.walkGetbulk session current maxRepetitions).1 = .ok (.varbinds page)
  getnext : ∀ session current, ∃ page, page ≠ [] ∧ mib.Answers current page ∧
    (T.walkGetnext session current).1 = .ok page

namespace WalkState
variable {σ : Type*} {T : SnmpWalkTransport σ}
variable {s : WalkState σ}

def Synced (mib : MibTable) (base : Oid) (target : List (Oid × SnmpValue)) (s : WalkState σ) :
    Prop :=
  s.openPage.Synced mib base target s.currentParts

theorem synced_start (mib : MibTable) (base : Oid) (session : σ) :
    (WalkState.start base session).Synced mib base (mib.unread base base) :=
  ⟨le_rfl, le_rfl, nofun, rfl, rfl, rfl⟩

/-- What a turn comes to where the agent is conformant. -/
def ReadsOn (mib : MibTable) (base : Oid) (target : List (Oid × SnmpValue)) :
    WalkState σ ⊕ WalkResult σ → Prop
  | .inl s => s.Synced mib base target
  | .inr r => r.stop.isComplete = true ∧ r.entries = target

theorem turnPage_of_synced (hs : s.openPage.Synced mib base target start)
    (htarget : target.length < maxWalkEntries) {page : List Varbind}
    (hpage : mib.Answers start page) (hne : page ≠ []) :
    ReadsOn mib base target (s.turnPage base page) := by
  have hread := hs.read hpage rfl (.inr hne) htarget
  rw [WalkState.turnPage, if_neg hne]
  obtain ⟨hstop, hfresh, next, hnext, hsynced⟩ | ⟨stop, hstop, hcomplete, hretry, hentries⟩ := hread
  · have hnew : (s.openPage.read base page).pageNew ≠ 0 := by
      have := length_pos_iff.mpr hne
      omega
    have hfinish : (s.openPage.read base page).finish = s.openPage.read base page := by
      simp only [PageRead.finish, hstop, hnext, if_neg hnew]
    have hsettle : (s.closePage (s.openPage.read base page)).settlePage
        (s.openPage.read base page) =
          .inl { s.closePage (s.openPage.read base page) with currentParts := next } := by
      simp only [settlePage, hsynced.retryPage_eq, hstop, hnext, Option.getD_some, Bool.false_and,
        Bool.false_eq_true, if_false]
    dsimp only
    rw [hfinish, hsettle]
    exact ⟨hsynced.base_le, hsynced.highWater_le, hsynced.seen_le, hsynced.entries_append,
      hsynced.count_eq, rfl⟩
  · have hfinish : (s.openPage.read base page).finish = s.openPage.read base page := by
      simp only [PageRead.finish, hstop]
    have hsettle : (s.closePage (s.openPage.read base page)).settlePage
        (s.openPage.read base page) =
          .inr ((s.closePage (s.openPage.read base page)).stopWith stop) := by
      simp only [settlePage, hretry, hstop, Bool.false_and, Bool.false_eq_true, if_false]
    dsimp only
    rw [hfinish, hsettle]
    exact ⟨hcomplete, hentries⟩

theorem request_of_conformant (hT : Conformant mib T) (s : WalkState σ) :
    (s.request T).1 = .ok .bulkUnsupported ∨ ∃ page, page ≠ [] ∧
      mib.Answers s.currentParts page ∧ (s.request T).1 = .ok (.varbinds page) := by
  unfold request
  by_cases hbulk : s.useBulk = true
  · rw [if_pos hbulk]
    exact hT.getbulk s.session s.currentParts bulkMaxRepetitions
  · obtain ⟨page, hne, hpage, hreply⟩ := hT.getnext s.session s.currentParts
    rw [if_neg hbulk]
    refine .inr ⟨page, hne, hpage, ?_⟩
    dsimp only
    rw [hreply]
    rfl

theorem Synced.turn (hT : Conformant mib T) (hs : s.Synced mib base target)
    (htarget : target.length < maxWalkEntries) : ReadsOn mib base target (s.turn T base) := by
  have hcount : ¬ maxWalkEntries ≤ s.count := by
    have hlength := congrArg List.length hs.entries_append
    have hcount : s.count = s.entries.length := hs.count_eq
    rw [length_append, show s.openPage.entries = s.entries from rfl, ← hcount] at hlength
    omega
  rw [WalkState.turn, if_neg hcount]
  obtain hbulk | ⟨page, hne, hpage, hreply⟩ := request_of_conformant hT s
  · rw [hbulk]
    exact hs
  · rw [hreply]
    exact turnPage_of_synced (s := { s with session := (s.request T).2 }) hs htarget hpage hne

theorem Synced.run (hT : Conformant mib T) (hs : s.Synced mib base target)
    (hok : s.Ok base) (htarget : target.length < maxWalkEntries) {fuel : ℕ}
    (hfuel : maxWalkEntries + 4 ≤ fuel) :
    ∃ r, Loop.run (WalkState.turn T base) fuel s = some r ∧ r.stop.isComplete = true ∧
      r.entries = target := by
  obtain ⟨r, hr⟩ := exists_run T hok hfuel
  refine ⟨r, hr, Loop.invariant_of_run (P := WalkState.Synced mib base target)
    (Q := fun r => r.stop.isComplete = true ∧ r.entries = target) ?_ ?_ hs hr⟩
  · intro s s' hs hturn
    have hread := hs.turn hT htarget
    rw [hturn] at hread
    exact hread
  · intro s r hs hturn
    have hread := hs.turn hT htarget
    rw [hturn] at hread
    exact hread

end WalkState

theorem MibTable.unread_base (mib : MibTable) (base : Oid) :
    mib.unread base base = mib.subtree base := by
  rw [unread, subtree, above, filter_filter]
  refine filter_congr fun row _ => ?_
  by_cases hbelow : IsBelow base row.1
  · simp [hbelow, lt_of_isBelow hbelow]
  · simp [hbelow]

theorem walkSubtree_of_conformant {σ : Type*} {T : SnmpWalkTransport σ} (hT : Conformant mib T)
    (base : Oid) (hrows : (mib.subtree base).length < maxWalkEntries) (session : σ) {fuel : ℕ}
    (hfuel : maxWalkEntries + 4 ≤ fuel) :
    ∃ r, walkSubtree fuel T base session = some r ∧ r.stop.isComplete = true ∧
      r.entries = mib.subtree base := by
  have hstart := WalkState.synced_start mib base session
  rw [mib.unread_base] at hstart
  exact hstart.run hT (WalkState.ok_start base session) hrows hfuel

/-- A page of at most `size` rows, or the mark if no row is left. -/
def MibTable.page (mib : MibTable) (size : ℕ) (start : Oid) : List Varbind :=
  if above mib.rows start = [] then [(start, .endOfMibView)]
  else ((above mib.rows start).take size).map fun row => (row.1, .value row.2)

def MibTable.serve (mib : MibTable) (size : Option ℕ) : SnmpWalkTransport Unit where
  walkGetbulk _ current _ := (.ok (match size with
    | some size => .varbinds (mib.page (size + 1) current)
    | none => .bulkUnsupported), ())
  walkGetnext _ current := (.ok (mib.page 1 current), ())

theorem MibTable.answers_take (mib : MibTable) (size : ℕ) (start : Oid) :
    mib.Answers start (((above mib.rows start).take size).map fun row => (row.1, .value row.2)) := by
  induction size generalizing start with
  | zero => exact .stop start
  | succ size ih =>
    cases habove : above mib.rows start with
    | nil => exact .stop start
    | cons row rest =>
      have hpage := ih row.1
      rw [above_of_above_eq_cons mib.sorted habove] at hpage
      exact .row habove hpage

theorem MibTable.answers_mark {mib : MibTable} {start : Oid} (h : above mib.rows start = []) :
    mib.Answers start [(start, .endOfMibView)] :=
  @Answers.marks mib start [start] h

theorem MibTable.answers_page (mib : MibTable) (size : ℕ) (start : Oid) :
    mib.page (size + 1) start ≠ [] ∧ mib.Answers start (mib.page (size + 1) start) := by
  unfold page
  by_cases habove : above mib.rows start = []
  · rw [if_pos habove]
    exact ⟨cons_ne_nil _ _, answers_mark habove⟩
  · rw [if_neg habove]
    refine ⟨?_, mib.answers_take (size + 1) start⟩
    rw [ne_eq, map_eq_nil_iff, take_eq_nil_iff, not_or]
    exact ⟨Nat.succ_ne_zero size, habove⟩

theorem MibTable.conformant_serve (mib : MibTable) (size : Option ℕ) :
    Conformant mib (mib.serve size) where
  getbulk _ current _ := by
    cases size with
    | none => exact .inl rfl
    | some size =>
      obtain ⟨hne, hpage⟩ := mib.answers_page size current
      exact .inr ⟨_, hne, hpage, rfl⟩
  getnext _ current := by
    obtain ⟨hne, hpage⟩ := mib.answers_page 0 current
    exact ⟨_, hne, hpage, rfl⟩

def twoPorts : MibTable :=
  ⟨[([1, 1, 1], .integer 1), ([1, 1, 2], .integer 2), ([1, 2, 1], .octetString [])], by decide⟩

theorem walkSubtree_of_conformant_twoPorts :
    (∃ r, walkSubtree (maxWalkEntries + 4) (twoPorts.serve (some 0)) [1, 1] () = some r ∧
      r.stop.isComplete = true ∧ r.entries = twoPorts.subtree [1, 1]) ∧
      twoPorts.subtree [1, 1] = [([1, 1, 1], .integer 1), ([1, 1, 2], .integer 2)] :=
  ⟨walkSubtree_of_conformant (twoPorts.conformant_serve (some 0)) [1, 1] (by decide) () le_rfl,
    by decide⟩

end Conformant

end Scanopy
