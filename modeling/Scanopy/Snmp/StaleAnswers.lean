import Scanopy.Snmp.Agents

/-! Walks in a session that has lost step: an answer can be missing, empty or that to an earlier
request. It does no harm as long as its request was asked from before the rows still to be read. -/

namespace Scanopy

open List Option Paging MibTable

section Aligned
variable {mib : MibTable} {base start : Oid}
variable {rest : List (Oid × SnmpValue)} {row : Oid × SnmpValue} {p : PageRead}

/-- What is left of the subtree lies above everything that the walk has been handed. -/
structure PageRead.Aligned (mib : MibTable) (base : Oid) (p : PageRead) : Prop where
  base_le : base ≤ p.highWater
  seen_le : ∀ oid ∈ p.seen, oid ≤ p.highWater
  next_le : ∀ next, p.nextParts = some next → next ≤ p.highWater
  entries_mem : ∀ e ∈ p.entries, e ∈ mib.rows
  unseen_gt : ∀ row ∈ mib.subtree base, row.1 ∉ p.seen → p.highWater < row.1

/-- Nothing that the walk still has to read lies at or before `start`. -/
def PageRead.Before (mib : MibTable) (base start : Oid) (p : PageRead) : Prop :=
  ∀ row ∈ mib.subtree base, row.1 ∉ p.seen → start < row.1

theorem PageRead.Aligned.withStop (h : p.Aligned mib base) (stop : WalkStop)
    (retry : Bool) : { p with stop := some stop, retryPage := retry }.Aligned mib base :=
  ⟨h.base_le, h.seen_le, h.next_le, h.entries_mem, h.unseen_gt⟩

theorem PageRead.Before.of_row (h : p.Before mib base start)
    (habove : above mib.rows start = row :: rest) {other : Oid × SnmpValue}
    (hother : other ∈ mib.subtree base) (hunseen : other.1 ∉ p.seen) :
    row = other ∨ row.1 < other.1 :=
  le_of_above_eq_cons mib.sorted habove (mem_subtree.mp hother).1
    (h other hother hunseen)

theorem PageRead.Aligned.take (h : p.Aligned mib base)
    (hbefore : p.Before mib base start)
    (habove : above mib.rows start = row :: rest) (hbelow : IsBelow base row.1) :
    (p.take row.1 row.2).Aligned mib base ∧ (p.take row.1 row.2).Before mib base row.1 := by
  have hrow : row ∈ mib.rows := (mem_above.mp (habove ▸ mem_cons_self)).1
  by_cases hseen : row.1 ∈ p.seen
  · rw [PageRead.take, if_pos hseen]
    refine ⟨⟨h.base_le, h.seen_le, ?_, h.entries_mem, h.unseen_gt⟩, ?_⟩
    · intro next hnext
      obtain rfl := some.inj hnext
      exact h.seen_le _ hseen
    · intro other hother hunseen
      obtain rfl | hlt := hbefore.of_row habove hother hunseen
      · exact absurd hseen hunseen
      · exact hlt
  · have hhigh : p.highWater < row.1 :=
      h.unseen_gt row (mem_subtree.mpr ⟨hrow, hbelow⟩) hseen
    have hrest : ∀ other ∈ mib.subtree base, other.1 ∉ insert row.1 p.seen → row.1 < other.1 := by
      intro other hother hunseen
      rw [Finset.mem_insert, not_or] at hunseen
      obtain rfl | hlt := hbefore.of_row habove hother hunseen.2
      · exact absurd rfl hunseen.1
      · exact hlt
    rw [take_of_not_mem hseen, if_pos hhigh]
    refine ⟨⟨h.base_le.trans hhigh.le, ?_, ?_, ?_, hrest⟩, hrest⟩
    · intro oid hoid
      obtain rfl | hoid := Finset.mem_insert.mp hoid
      · exact le_rfl
      · exact (h.seen_le oid hoid).trans hhigh.le
    · intro next hnext
      exact (some.inj hnext).ge
    · intro e he
      obtain he | he := mem_append.mp he
      · exact h.entries_mem e he
      · rw [mem_singleton.mp he]
        exact hrow

def PageRead.Honest (mib : MibTable) (base : Oid) (p : PageRead) : Prop :=
  ∀ stop, p.stop = some stop → stop.isComplete = true → ∀ row ∈ mib.subtree base, row.1 ∈ p.seen

theorem PageRead.Aligned.read {page : List Varbind} (hpage : mib.Answers start page)
    (h : p.Aligned mib base) (hbefore : p.Before mib base start) (hstop : p.stop = none) :
    (p.read base page).Aligned mib base ∧ (p.read base page).Honest mib base := by
  induction hpage generalizing p with
  | stop start => exact ⟨h, fun stop hsome => by cases hstop ▸ hsome⟩
  | @row start row rest page habove hpage ih =>
    rw [PageRead.read]
    by_cases hbelow : IsBelow base row.1
    · obtain ⟨htake, hnext⟩ := h.take hbefore habove hbelow
      rw [if_pos hbelow]
      split_ifs with hcap
      · refine ⟨htake.withStop .entryCap _, fun stop hsome hcomplete => ?_⟩
        obtain rfl := some.inj hsome
        cases hcomplete
      · have hstop' : (p.take row.1 row.2).stop = none := by
          unfold PageRead.take
          split_ifs <;> exact hstop
        exact ih htake hnext hstop'
    · rw [if_neg hbelow]
      split_ifs with hstale
      · refine ⟨h.withStop .staleResponse true, fun stop hsome hcomplete => ?_⟩
        obtain rfl := some.inj hsome
        cases hcomplete
      · refine ⟨h.withStop .endOfSubtree _, fun stop _ _ other hother => ?_⟩
        -- the first row behind `start` is behind the subtree, so that nothing is left in it
        by_contra hunseen
        have hbase : base < row.1 := h.base_le.trans_lt (not_le.mp hstale)
        have hbehind := lt_of_not_isBelow hbase hbelow (mem_subtree.mp hother).2
        obtain rfl | hlt := hbefore.of_row habove hother hunseen
        · exact lt_irrefl _ hbehind
        · exact lt_asymm hlt hbehind
  | @marks start marks habove =>
    cases marks with
    | nil => exact ⟨h, fun stop hsome => by cases hstop ▸ hsome⟩
    | cons oid marks =>
      refine ⟨h.withStop .endOfMibView _, fun stop _ _ other hother => ?_⟩
      by_contra hunseen
      exact not_lt_of_above_eq_nil habove (mem_subtree.mp hother).1
        (hbefore other hother hunseen)

theorem PageRead.Aligned.finish (h : p.Aligned mib base) (hp : p.Honest mib base) :
    p.finish.Aligned mib base ∧ p.finish.Honest mib base := by
  unfold PageRead.finish
  split
  · exact ⟨h, hp⟩
  · split_ifs
    · refine ⟨h.withStop .nonAdvancingOid true, fun stop hsome hcomplete => ?_⟩
      obtain rfl := some.inj hsome
      exact absurd hcomplete nofun
    · exact ⟨h, hp⟩
  · refine ⟨h.withStop .emptyResponse _, fun stop hsome hcomplete => ?_⟩
    obtain rfl := some.inj hsome
    exact absurd hcomplete nofun

theorem PageRead.highWater_le_take (p : PageRead) (oid : Oid) (v : SnmpValue) :
    p.highWater ≤ (p.take oid v).highWater := by
  unfold PageRead.take
  split_ifs with hseen hlt
  · exact le_rfl
  · exact hlt.le
  · exact le_rfl

theorem PageRead.le_highWater_finish {oid : Oid} (base : Oid) (h : oid ≤ p.highWater)
    (hcount : p.count < maxWalkEntries) (page : List Varbind) :
    oid ≤ (p.read base page).finish.highWater := by
  have hread : oid ≤ (p.read base page).highWater :=
    read_invariant (P := fun q => oid ≤ q.highWater)
      (fun q o v hq _ _ => hq.trans (q.highWater_le_take o v)) (fun _ _ _ hq => hq) h hcount page
  unfold finish
  split
  · exact hread
  · split_ifs <;> exact hread
  · exact hread

namespace WalkState
variable {σ : Type*} {T : SnmpWalkTransport σ} {asked : σ → List Oid}
variable {page : List Varbind} {row : Oid × SnmpValue} {s : WalkState σ}

/-- The invariant of a walk that has only been answered in step. -/
structure Aligned (mib : MibTable) (base : Oid) (s : WalkState σ) : Prop where
  ok : s.Ok base
  page : s.openPage.Aligned mib base
  current_le : s.currentParts ≤ s.highWater

theorem aligned_start (mib : MibTable) (base : Oid) (session : σ) :
    (WalkState.start base session).Aligned mib base where
  ok := ok_start base session
  page := ⟨le_rfl, nofun, nofun, nofun, fun _ hrow _ =>
    lt_of_isBelow (mem_subtree.mp hrow).2⟩
  current_le := le_rfl

theorem Aligned.mem_entries (hs : s.Aligned mib base)
    (hrow : row ∈ mib.subtree base) (hseen : row.1 ∈ s.seen) : row ∈ s.entries := by
  obtain ⟨e, he, hkey⟩ := List.mem_map.mp ((hs.ok.mem_seen row.1).mp hseen)
  have hmem := (mem_subtree.mp hrow).1
  exact eq_of_key_eq mib.sorted (hs.page.entries_mem e he) hmem hkey ▸ he

/-- What a turn comes to where the answer is in step. -/
def Sound (mib : MibTable) (base : Oid) : WalkState σ ⊕ WalkResult σ → Prop
  | .inl s => s.Aligned mib base
  | .inr r => r.stop.isComplete = true → ∀ row ∈ mib.subtree base, row ∈ r.entries

theorem Aligned.turnPage (hs : s.Aligned mib base)
    (hcount : s.count < maxWalkEntries) (hpage : mib.Answers start page)
    (hbefore : s.openPage.Before mib base start) : Sound mib base (s.turnPage base page) := by
  rw [WalkState.turnPage]
  split_ifs with hempty
  · rintro ⟨⟩
  obtain ⟨hread, hhonest⟩ := hs.page.read hpage hbefore rfl
  obtain ⟨hread, hhonest⟩ := hread.finish hhonest
  have hopen : s.openPage.Ok base s.count := ⟨hs.ok, rfl⟩
  have hok := (hopen.read hcount page).finish.handedOn
  have hcurrent := PageRead.le_highWater_finish (p := s.openPage) base hs.current_le
    hcount page
  generalize (s.openPage.read base page).finish = p at hread hhonest hok hcurrent
  have hclosed : (s.closePage p).Aligned mib base :=
    ⟨hok, ⟨hread.base_le, hread.seen_le, by simp [WalkState.closePage, WalkState.openPage], hread.entries_mem, hread.unseen_gt⟩, hcurrent⟩
  dsimp only
  rw [settlePage]
  split_ifs with hretry
  · exact ⟨hclosed.ok, hclosed.page, hclosed.current_le⟩
  · cases hstop : p.stop with
    | some stop =>
      exact fun hcomplete row hrow => hclosed.mem_entries hrow (hhonest stop hstop hcomplete row hrow)
    | none =>
      refine ⟨hclosed.ok, hclosed.page, ?_⟩
      cases hnext : p.nextParts with
      | some next => exact hread.next_le next hnext
      | none => exact hcurrent

def InStep (mib : MibTable) (T : SnmpWalkTransport σ) (asked : σ → List Oid) (base : Oid)
    (s : WalkState σ) : Prop :=
  ∀ page, (s.request T).1 = .ok (.varbinds page) → page ≠ [] →
    ∃ start ∈ s.currentParts :: asked s.session, mib.Answers start page ∧
      ∀ row ∈ mib.subtree base, row ∉ s.entries → start < row.1

theorem Aligned.turn (hs : s.Aligned mib base) (hstep : s.InStep mib T asked base) :
    Sound mib base (s.turn T base) := by
  by_cases hcount : s.count < maxWalkEntries
  · have hs' : { s with session := (s.request T).2 }.Aligned mib base :=
      ⟨hs.ok, hs.page, hs.current_le⟩
    rw [WalkState.turn, if_neg (not_le.mpr hcount)]
    rcases hreply : (s.request T).1 with e | page | _
    · rw [turnReply]
      split_ifs
      · exact ⟨hs.ok, hs.page, hs.current_le⟩
      · rintro ⟨⟩
    · rw [turnReply]
      by_cases hempty : page = []
      · rw [WalkState.turnPage, if_pos hempty]
        rintro ⟨⟩
      · obtain ⟨start, -, hpage, hbefore⟩ := hstep page hreply hempty
        refine hs'.turnPage hcount hpage fun row hrow hunseen => hbefore row hrow fun hmem => ?_
        exact hunseen ((hs.ok.mem_seen row.1).mpr (List.mem_map_of_mem hmem))
    · exact ⟨hs.ok, hs.page, hs.current_le⟩
  · rw [turn_of_cap hcount]
    rintro ⟨⟩

theorem Aligned.synced (hs : s.Aligned mib base)
    (hrow : row ∈ mib.subtree base) (hunread : row ∉ s.entries) (hle : row.1 ≤ start) :
    s.openPage.Synced mib base (s.entries ++ mib.unread base start) start := by
  have hunseen : row.1 ∉ s.seen := fun hseen => hunread (hs.mem_entries hrow hseen)
  have hhigh : s.highWater ≤ start := (hs.page.unseen_gt row hrow hunseen).le.trans hle
  exact ⟨hs.page.base_le.trans hhigh, hhigh, fun oid hoid => (hs.page.seen_le oid hoid).trans hhigh,
    rfl, hs.ok.length_eq.symm, rfl⟩

theorem Aligned.length_append_unread (hs : s.Aligned mib base)
    (hhigh : s.highWater ≤ start) :
    (s.entries ++ mib.unread base start).length ≤ (mib.subtree base).length := by
  refine (subperm_of_subset (nodup_append.mpr ⟨?_, ?_, ?_⟩) ?_).length_le
  · exact hs.ok.nodup.of_map _
  · have hrows : mib.rows.Nodup := mib.sorted.imp fun hlt heq => absurd (heq ▸ hlt) (lt_irrefl _)
    exact (hrows.filter _).filter _
  · intro e he f hf heq
    have hseen : e.1 ∈ s.seen := (hs.ok.mem_seen e.1).mpr (List.mem_map_of_mem he)
    have hbefore : e.1 ≤ start := (hs.page.seen_le e.1 hseen).trans hhigh
    exact not_lt.mpr hbefore (heq ▸ (mem_unread.mp hf).2.1)
  · intro e he
    obtain he | he := mem_append.mp he
    · exact mem_subtree.mpr ⟨hs.page.entries_mem e he, hs.ok.below e he⟩
    · obtain ⟨hmem, -, hbelow⟩ := mem_unread.mp he
      exact mem_subtree.mpr ⟨hmem, hbelow⟩

/-- The rest of a walk whose turn has come to `outcome`. -/
def resume (T : SnmpWalkTransport σ) (base : Oid) (fuel : ℕ) :
    WalkState σ ⊕ WalkResult σ → Option (WalkResult σ)
  | .inl s => Loop.run (WalkState.turn T base) fuel s
  | .inr r => some r

theorem Aligned.overstated (hs : s.Aligned mib base)
    (hcount : s.count < maxWalkEntries) (hrows : (mib.subtree base).length < maxWalkEntries)
    (hpage : mib.Answers start page) (hne : page ≠ []) (hrow : row ∈ mib.subtree base)
    (hunread : row ∉ s.entries)
    (hle : row.1 ≤ start) (hT : Conformant mib T) {fuel : ℕ} (hfuel : maxWalkEntries + 4 ≤ fuel) :
    ∃ r, resume T base fuel (s.turnPage base page) = some r ∧ r.stop.isComplete = true ∧
      row ∉ r.entries := by
  have hsynced := hs.synced hrow hunread hle
  have htarget := (hs.length_append_unread hsynced.highWater_le).trans_lt hrows
  have hread := turnPage_of_synced hsynced htarget hpage hne
  have hok := turnPage_ok hs.ok hcount page
  have hmissing : row ∉ s.entries ++ mib.unread base start := by
    rw [mem_append, not_or]
    exact ⟨hunread, fun hmem => not_lt.mpr hle (mem_unread.mp hmem).2.1⟩
  cases hturn : s.turnPage base page with
  | inl s' =>
    rw [hturn] at hread hok
    obtain ⟨r, hr, hcomplete, hentries⟩ := hread.run hT hok.1 htarget hfuel
    exact ⟨r, hr, hcomplete, hentries ▸ hmissing⟩
  | inr r =>
    rw [hturn] at hread
    exact ⟨r, rfl, hread.1, hread.2 ▸ hmissing⟩

theorem highWater_le_of_turn {s' : WalkState σ} (h : s.turn T base = .inl s') :
    s.highWater ≤ s'.highWater := by
  by_cases hcount : s.count < maxWalkEntries
  · rw [WalkState.turn, if_neg (not_le.mpr hcount)] at h
    rcases hreply : (s.request T).1 with e | page | _
    · rw [hreply, turnReply] at h
      split_ifs at h
      obtain rfl := Sum.inl.inj h
      exact le_rfl
    · have hle := PageRead.le_highWater_finish (p := s.openPage) base le_rfl hcount page
      rw [hreply, turnReply, WalkState.turnPage] at h
      split_ifs at h
      dsimp only [settlePage] at h
      split_ifs at h
      · obtain rfl := Sum.inl.inj h
        exact hle
      · split at h
        · cases h
        · obtain rfl := Sum.inl.inj h
          exact hle
    · rw [hreply, turnReply] at h
      obtain rfl := Sum.inl.inj h
      exact le_rfl
  · rw [turn_of_cap hcount] at h
    cases h

end WalkState

end Aligned

section Sessions
variable {σ : Type*} {mib : MibTable} {T : SnmpWalkTransport σ} {asked : σ → List Oid}
variable {base : Oid} {s : WalkState σ} {session : σ}

/-- A session whose answers are lost, empty, or answers to requests of the session; `asked` are
the keys that it has been asked from, for whatever column. -/
structure Replays (mib : MibTable) (T : SnmpWalkTransport σ) (asked : σ → List Oid) : Prop where
  getbulk : ∀ session current maxRepetitions,
    asked (T.walkGetbulk session current maxRepetitions).2 = current :: asked session ∧
      ∀ page, (T.walkGetbulk session current maxRepetitions).1 = .ok (.varbinds page) → page ≠ [] →
        ∃ start ∈ current :: asked session, mib.Answers start page
  getnext : ∀ session current, asked (T.walkGetnext session current).2 = current :: asked session ∧
    ∀ page, (T.walkGetnext session current).1 = .ok page → page ≠ [] →
      ∃ start ∈ current :: asked session, mib.Answers start page

def CompleteIsComplete (mib : MibTable) (T : SnmpWalkTransport σ) (base : Oid) (session : σ) : Prop :=
  ∀ fuel r, walkSubtree fuel T base session = some r → r.stop.isComplete = true →
    ∀ row ∈ mib.subtree base, row ∈ r.entries

theorem Replays.request (hT : Replays mib T asked) (s : WalkState σ) :
    asked (s.request T).2 = s.currentParts :: asked s.session ∧
      ∀ page, (s.request T).1 = .ok (.varbinds page) → page ≠ [] →
        ∃ start ∈ s.currentParts :: asked s.session, mib.Answers start page := by
  unfold WalkState.request
  by_cases hbulk : s.useBulk = true
  · rw [if_pos hbulk]
    exact hT.getbulk s.session s.currentParts bulkMaxRepetitions
  · obtain ⟨hasked, hreply⟩ := hT.getnext s.session s.currentParts
    rw [if_neg hbulk]
    refine ⟨hasked, fun page hpage => hreply page ?_⟩
    cases hnext : (T.walkGetnext s.session s.currentParts).1 with
    | error e => exact absurd (hnext ▸ hpage) nofun
    | ok page' =>
      rw [hnext] at hpage
      rw [WalkPage.varbinds.inj (Except.ok.inj hpage)]

theorem WalkState.aligned_of_reaches
    (hstep : ∀ s, Loop.Reaches (WalkState.turn T base) (WalkState.start base session) s →
      s.InStep mib T asked base)
        (hs : Loop.Reaches (WalkState.turn T base) (WalkState.start base session) s) :
    s.Aligned mib base := by
  refine hs.invariant (WalkState.aligned_start mib base session) fun t t' ht halign hturn => ?_
  have hsound := halign.turn (hstep t ht)
  rw [hturn] at hsound
  exact hsound

theorem completeIsComplete_of_inStep (base : Oid) (session : σ)
    (hstep : ∀ s, Loop.Reaches (WalkState.turn T base) (WalkState.start base session) s →
      s.InStep mib T asked base) :
    CompleteIsComplete mib T base session ∧ ((mib.subtree base).length < maxWalkEntries →
        ∀ s, Loop.Reaches (WalkState.turn T base) (WalkState.start base session) s →
          s.count < maxWalkEntries → ∀ start page, mib.Answers start page → page ≠ [] →
            ∀ row ∈ mib.subtree base, row ∉ s.entries → row.1 ≤ start →
              ∀ T' : SnmpWalkTransport σ, Conformant mib T' →
                ∃ r, WalkState.resume T' base (maxWalkEntries + 4) (s.turnPage base page) = some r ∧
                  r.stop.isComplete = true ∧ row ∉ r.entries) := by
  constructor
  · intro fuel r hr hcomplete
    obtain ⟨s, hs, hturn⟩ := Loop.exists_reaches_of_run hr
    have hsound := (WalkState.aligned_of_reaches hstep hs).turn (hstep s hs)
    rw [hturn] at hsound
    exact hsound hcomplete
  · intro hrows s hs hcount start page hpage hne row hrow hunread hle T' hT'
    exact (WalkState.aligned_of_reaches hstep hs).overstated hcount hrows hpage hne hrow hunread hle
      hT' le_rfl

theorem WalkState.Aligned.inStep (hs : s.Aligned mib base)
    (hT : Replays mib T asked) (hasked : ∀ start ∈ asked s.session, start ≤ s.highWater) :
    s.InStep mib T asked base := by
  intro page hreply hne
  obtain ⟨start, hstart, hpage⟩ := (hT.request s).2 page hreply hne
  refine ⟨start, hstart, hpage, fun row hrow hunread => ?_⟩
  have hle : start ≤ s.highWater := by
    obtain rfl | hstart := mem_cons.mp hstart
    · exact hs.current_le
    · exact hasked start hstart
  exact hle.trans_lt (hs.page.unseen_gt row hrow fun hseen => hunread (hs.mem_entries hrow hseen))

theorem WalkState.inStep_of_asked_le (hT : Replays mib T asked)
    (hasked : ∀ start ∈ asked session, start ≤ base)
    (hs : Loop.Reaches (WalkState.turn T base) (WalkState.start base session) s) :
    s.InStep mib T asked base := by
  have hinv : s.Aligned mib base ∧ ∀ start ∈ asked s.session, start ≤ s.highWater := by
    refine hs.invariant (P := fun t =>
      t.Aligned mib base ∧ ∀ start ∈ asked t.session, start ≤ t.highWater)
      ⟨WalkState.aligned_start mib base session, hasked⟩ ?_
    rintro t t' - ⟨halign, hle⟩ hturn
    have hsound := halign.turn (halign.inStep hT hle)
    have hmono := WalkState.highWater_le_of_turn hturn
    obtain ⟨-, hsession, -⟩ := WalkState.turn_goesOn halign.ok hturn
    rw [hturn] at hsound
    refine ⟨hsound, fun start hstart => ?_⟩
    rw [hsession, (hT.request t).1] at hstart
    obtain rfl | hstart := mem_cons.mp hstart
    · exact halign.current_le.trans hmono
    · exact (hle start hstart).trans hmono
  exact hinv.1.inStep hT hinv.2

def MibTable.serveBehind (mib : MibTable) : SnmpWalkTransport (List Oid) where
  walkGetbulk asked current maxRepetitions :=
    (.ok (.varbinds (mib.page maxRepetitions (asked.headD current))), current :: asked)
  walkGetnext asked current := (.ok (mib.page 1 (asked.headD current)), current :: asked)

def lldpRemChassisIdSubtypeOid : Oid := [1, 0, 8802, 1, 1, 2, 1, 4, 1, 1, 4]

def ifAliasOid : Oid := [1, 3, 6, 1, 2, 1, 31, 1, 1, 1, 18]

def oneNeighbor : MibTable :=
  ⟨[(lldpRemChassisIdSubtypeOid ++ [0, 1, 1], .integer 4), (ifAliasOid ++ [1], .octetString [])],
    by decide⟩

theorem MibTable.replays_serveBehind (mib : MibTable) : Replays mib mib.serveBehind id := by
  have hpage : ∀ (size : ℕ) (asked : List Oid) (current : Oid) (page : List Varbind),
      mib.page size (asked.headD current) = page → page ≠ [] →
        ∃ start ∈ current :: asked, mib.Answers start page := by
    rintro size asked current page rfl hne
    have hmem : asked.headD current ∈ current :: asked := by
      cases asked with
      | nil => exact mem_cons_self
      | cons start asked => exact mem_cons_of_mem _ mem_cons_self
    refine ⟨_, hmem, ?_⟩
    unfold page
    split_ifs with habove
    · exact answers_mark habove
    · exact mib.answers_take size _
  refine ⟨fun asked current size => ⟨rfl, fun page heq => ?_⟩,
    fun asked current => ⟨rfl, fun page heq => hpage 1 asked current page (Except.ok.inj heq)⟩⟩
  exact hpage size asked current page (WalkPage.varbinds.inj (Except.ok.inj heq))

theorem completeIsComplete_of_inStep_serveBehind :
    CompleteIsComplete oneNeighbor oneNeighbor.serveBehind ifAliasOid [lldpRemChassisIdSubtypeOid] :=
  (completeIsComplete_of_inStep ifAliasOid [lldpRemChassisIdSubtypeOid] fun _ hs =>
    WalkState.inStep_of_asked_le oneNeighbor.replays_serveBehind (by decide) hs).1

theorem not_completeIsComplete_serveBehind :
    ¬ ∀ (mib : MibTable) (T : SnmpWalkTransport (List Oid)) (asked : List Oid → List Oid)
      (base : Oid) (session : List Oid), Replays mib T asked →
        CompleteIsComplete mib T base session := by
  intro h
  have hwalk := h oneNeighbor oneNeighbor.serveBehind id lldpRemChassisIdSubtypeOid [ifAliasOid]
    oneNeighbor.replays_serveBehind 5
      ⟨[lldpRemChassisIdSubtypeOid, ifAliasOid], [], .endOfSubtree⟩ rfl rfl
      (lldpRemChassisIdSubtypeOid ++ [0, 1, 1], .integer 4) (by decide)
  exact not_mem_nil hwalk

end Sessions

end Scanopy
