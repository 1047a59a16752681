import Scanopy.Hosts.Edits

/-! The version check of host edits. The version of a host is the time of its last edit; scans and
edits of single children write without a new version. -/

namespace Scanopy

open List Option

namespace EditPhase

def kinds : EditPhase → List ChildKind
  | loaded | update _ _ => [.ipAddress, .port, .service]
  | sync _ kinds | delete _ _ _ _ kinds | put _ _ _ kinds => kinds

def inputs : EditPhase → List ChildInput
  | delete _ _ _ inputs _ | put _ _ inputs _ => inputs
  | loaded | update _ _ | sync _ _ => []

def removed : EditPhase → List (ChildKind × Uuid)
  | delete _ removed _ _ _ => removed
  | loaded | update _ _ | sync _ _ | put _ _ _ _ => []

def versioned : EditPhase → Bool
  | loaded => true
  | update sub _ | sync sub _ | delete sub _ _ _ _ | put sub _ _ _ => sub.versioned

end EditPhase

namespace EditStep

def actor : EditStep → Option ℕ
  | proceed call _ _ => some call
  | _ => none

def loads (call : ℕ) : EditStep → Bool
  | load call' _ => call' = call
  | _ => false

end EditStep

namespace EditSystem
variable (s : EditSystem)
variable {hostId : Uuid}

def ownersOf (keys : List (ChildKind × Uuid)) : List Uuid :=
  (s.children.rows.filter fun c => c.key ∈ keys).map ChildRow.hostId

def touches : EditStep → List Uuid
  | .proceed call now _ => match s.edit call with
    | some c => match c.phase with
      | .update _ existing => [existing.id]
      | .delete _ removed _ _ _ => s.ownersOf removed
      | .put sub _ (input :: _) _ =>
        c.hostId :: s.ownersOf [(input.toChild c.hostId sub.networkId now).key]
      | .loaded | .sync _ _ | .put _ _ [] _ => []
    | none => []
  | .writeUpsert scan => ((s.scan scan).map (·.id)).toList
  | .writeChild child => child.hostId :: s.ownersOf [child.key]
  | .deleteChildren keys => s.ownersOf keys
  | .load _ _ | .submit _ _ _ | .refuse _ | .readUpsert _ _ _ => []

def versionOf (hostId : Uuid) : Option Timestamp := (s.hosts.find hostId).map (·.base.updatedAt)

def versionAfter (l : EditStep) (hostId : Uuid) : Option Timestamp :=
  match l with
  | .proceed call now _ => match s.edit call with
    | some c => match c.phase with
      | .update _ existing => if existing.id = hostId then some now else s.versionOf hostId
      | _ => s.versionOf hostId
    | none => s.versionOf hostId
  | .writeUpsert scan => match s.scan scan with
    | some row => if row.id = hostId then some row.base.updatedAt else s.versionOf hostId
    | none => s.versionOf hostId
  | _ => s.versionOf hostId

def changed (s' : EditSystem) (hostId : Uuid) : Bool :=
  decide (s.hosts.find hostId ≠ s'.hosts.find hostId) ||
    !((s.childrenOf hostId).all (· ∈ s'.children.rows) &&
      (s'.childrenOf hostId).all (· ∈ s.children.rows))

def Noticed (l : EditStep) : Prop :=
  ∀ p ∈ s.edits, l.actor ≠ some p.1 → p.2.phase.versioned = true → p.2.hostId ∈ s.touches l →
    p.2.phase = .loaded ∧ s.versionAfter l p.2.hostId ≠ some p.2.updatedAt

instance : DecidablePred s.Noticed := fun _ =>
  inferInstanceAs (Decidable (∀ p ∈ s.edits, _))

def disturb (s : EditSystem) (l : EditStep) (s' : EditSystem) (disturbed : ℕ → Bool) : ℕ → Bool :=
  fun call => !l.loads call && (disturbed call || (decide (l.actor ≠ some call) &&
    s.edits.any fun p => p.1 = call && s.changed s' p.2.hostId))

def succeeds : EditStep → Option ℕ
  | .proceed call _ _ => (s.edit call).bind fun c => match c.phase with
    | .sync sub [] => if sub.versioned then some call else none
    | _ => none
  | _ => none

def removes : EditStep → List (ChildKind × Uuid) × List (ChildKind × Uuid)
  | .proceed call _ _ => match s.edit call with
    | some c => if c.phase.versioned then (c.phase.removed, c.children) else ([], [])
    | none => ([], [])
  | _ => ([], [])

def Caught (disturbed : ℕ → Bool) (l : EditStep) : Prop :=
  (∀ call, s.succeeds l = some call → disturbed call = false) ∧
    ∀ key ∈ (s.removes l).1, key ∈ (s.removes l).2

variable {s} {s' : EditSystem}

theorem changed_eq_false (h : s.changed s' hostId = false) :
    s'.hosts.find hostId = s.hosts.find hostId ∧
      ∀ c : ChildRow, c.hostId = hostId → (c ∈ s'.children ↔ c ∈ s.children) := by
  unfold changed at h
  rw [Bool.or_eq_false_iff, Bool.not_eq_false', Bool.and_eq_true, List.all_eq_true,
    List.all_eq_true, decide_eq_false_iff_not, not_not] at h
  refine ⟨h.1.symm, fun c hc => ⟨fun hmem => ?_, fun hmem => ?_⟩⟩
  · exact of_decide_eq_true (h.2.2 c (mem_filter.mpr ⟨hmem, decide_eq_true hc⟩))
  · exact of_decide_eq_true (h.2.1 c (mem_filter.mpr ⟨hmem, decide_eq_true hc⟩))

theorem changed_of_same (hhosts : s'.hosts.find hostId = s.hosts.find hostId)
    (hchildren : ∀ c : ChildRow, c.hostId = hostId → (c ∈ s'.children ↔ c ∈ s.children)) :
    s.changed s' hostId = false := by
  unfold changed
  rw [Bool.or_eq_false_iff, Bool.not_eq_false', Bool.and_eq_true, List.all_eq_true,
    List.all_eq_true, decide_eq_false_iff_not, not_not]
  refine ⟨hhosts.symm, fun c hc => ?_, fun c hc => ?_⟩
  · obtain ⟨hmem, hhost⟩ := mem_filter.mp hc
    exact decide_eq_true ((hchildren c (of_decide_eq_true hhost)).mpr hmem)
  · obtain ⟨hmem, hhost⟩ := mem_filter.mp hc
    exact decide_eq_true ((hchildren c (of_decide_eq_true hhost)).mp hmem)

end EditSystem

section Writes
variable {t t' : ChildTable} {hostId : Uuid}
variable {r : ChildRow}

theorem key_preserveImmutableFields (new existing : ChildRow) :
    (new.preserveImmutableFields existing).key = new.key := by
  cases new <;> cases existing <;> rfl

theorem hostId_preserveImmutableFields (new existing : ChildRow) :
    (new.preserveImmutableFields existing).hostId = new.hostId := by
  cases new <;> cases existing <;> rfl

theorem hostId_toChild (hostId networkId : Uuid) (now : Timestamp) (input : ChildInput) :
    (input.toChild hostId networkId now).hostId = hostId := by
  cases input <;> rfl

theorem kind_toChild (hostId networkId : Uuid) (now : Timestamp) (input : ChildInput) :
    (input.toChild hostId networkId now).kind = input.kind := by
  cases input <;> rfl

theorem mem_set_of_hostId (hr : r.hostId ≠ hostId)
    (hstored : ∀ c ∈ t, c.key = r.key → c.hostId ≠ hostId) (c : ChildRow)
    (hc : c.hostId = hostId) : c ∈ t.set r ↔ c ∈ t := by
  by_cases hkey : c.key = r.key
  · constructor
    · intro hmem
      rw [Table.eq_of_mem_set hmem hkey] at hc
      exact absurd hc hr
    · intro hmem
      exact absurd hc (hstored c hmem hkey)
  · exact Table.mem_set_of_ne hkey

theorem mem_put_of_hostId (hr : r.hostId ≠ hostId)
    (hstored : ∀ c ∈ t, c.key = r.key → c.hostId ≠ hostId) (c : ChildRow)
    (hc : c.hostId = hostId) : c ∈ t.put r ↔ c ∈ t := by
  rw [Table.mem_put]
  constructor
  · rintro (⟨hmem, -⟩ | rfl)
    · exact hmem
    · exact absurd hc hr
  · intro hmem
    exact .inl ⟨hmem, fun hkey => hstored c hmem hkey hc⟩

theorem mem_delete_of_hostId {keys : List (ChildKind × Uuid)}
    (hstored : ∀ c ∈ t, c.key ∈ keys → c.hostId ≠ hostId) (c : ChildRow)
    (hc : c.hostId = hostId) : c ∈ t.delete (·.key ∈ keys) ↔ c ∈ t := by
  rw [Table.mem_delete, decide_eq_false_iff_not]
  exact and_iff_left_of_imp fun hmem hkey => hstored c hmem hkey hc

end Writes

namespace EditSystem
variable {s s' : EditSystem} {hostId : Uuid}
variable {kind : ChildKind} {child : ChildRow} {children : ChildTable} {l : EditStep}
  {hosts : EntityTable TrackedHostBase} {c : HostEditCall} {inputs : List ChildInput}
  {existing : List ChildRow} {merged : Option ChildRow} {now t : Timestamp} {call : ℕ}
  {p : ℕ × HostEditCall}

theorem ne_of_notMem_ownersOf {keys : List (ChildKind × Uuid)} (h : hostId ∉ s.ownersOf keys) :
    ∀ c ∈ s.children, c.key ∈ keys → c.hostId ≠ hostId := by
  intro c hc hkey hhost
  refine h (List.mem_map.mpr ⟨c, mem_filter.mpr ⟨hc, decide_eq_true hkey⟩, hhost⟩)

theorem putChild_cases (h : s.putChild existing child merged = some children) :
    (∃ r, r.key = child.key ∧ r.hostId = child.hostId ∧ children = s.children.set r) ∨
    (∃ r, r.kind = child.kind ∧ r.hostId = child.hostId ∧ children = s.children.set r ∧
      ∃ c ∈ s.children, c.key = r.key ∧ c.hostId = child.hostId) ∨
    s.children.insertMany [child] = some children := by
  unfold putChild at h
  split at h
  · rename_i stored _
    cases h
    exact .inl ⟨_, key_preserveImmutableFields child stored,
      hostId_preserveImmutableFields child stored, rfl⟩
  · split at h
    · rename_i target
      split_ifs at h with htarget
      cases h
      obtain ⟨c, hc, hkey, hhost, hhost', hkind⟩ := htarget
      exact .inr (.inl ⟨target, hkind, hhost', rfl, c, hc, hkey, hhost⟩)
    · exact .inr (.inr h)

theorem mem_putChild_of_hostId
    (h : s.putChild existing child merged = some children) (hchild : child.hostId ≠ hostId)
    (howners : hostId ∉ s.ownersOf [child.key]) (c : ChildRow) (hc : c.hostId = hostId) :
    c ∈ children ↔ c ∈ s.children := by
  rcases putChild_cases h with ⟨r, hkey, hhost, rfl⟩ | ⟨r, -, hhost, rfl, stored, hstored, hkey, hown⟩ |
    hinsert
  · refine mem_set_of_hostId (hhost.trans_ne hchild) (fun c' hc' hkey' => ?_) c hc
    exact ne_of_notMem_ownersOf howners c' hc' (mem_singleton.mpr (hkey'.trans hkey))
  · refine mem_set_of_hostId (hhost.trans_ne hchild) (fun c' hc' hkey' => ?_) c hc
    rw [s.children.eq_of_key hc' hstored (hkey'.trans hkey.symm), hown]
    exact hchild
  · rw [Table.mem_insertMany hinsert, mem_singleton, or_iff_left]
    rintro rfl
    exact hchild hc

inductive EditMove (s : EditSystem) (c : HostEditCall) (now : Timestamp) (merged : Option ChildRow) :
    EntityTable TrackedHostBase → ChildTable → Option HostEditCall → Prop
  | update {sub : Submission} {existing : TrackedHost} (hphase : c.phase = .update sub existing) :
    EditMove s c now merged (s.hosts.set (editHost existing sub.request.edit now)) s.children
      (some (c.moveTo (.sync sub [.ipAddress, .port, .service])))
  | finish {sub : Submission} (hphase : c.phase = .sync sub []) :
    EditMove s c now merged s.hosts s.children none
  | skip {sub : Submission} {kind : ChildKind} {kinds : List ChildKind}
    (hphase : c.phase = .sync sub (kind :: kinds)) :
    EditMove s c now merged s.hosts s.children (some (c.moveTo (.sync sub kinds)))
  | read {sub : Submission} {kind : ChildKind} {kinds : List ChildKind} {inputs ordered : List ChildInput}
    {removed : List (ChildKind × Uuid)} {existing : List ChildRow}
    (hphase : c.phase = .sync sub (kind :: kinds)) (hinputs : sub.request.inputs kind = some inputs)
    (hordered : orderedInputs kind inputs existing = .ok ordered)
    (hremoved : ∀ key ∈ removed, ∃ child ∈ s.children, child.hostId = c.hostId ∧
      child.kind = kind ∧ child.key = key) :
    EditMove s c now merged s.hosts s.children
      (some (c.moveTo (.delete sub removed existing ordered kinds)))
  | delete {sub : Submission} {removed : List (ChildKind × Uuid)} {existing : List ChildRow}
    {inputs : List ChildInput} {kinds : List ChildKind}
    (hphase : c.phase = .delete sub removed existing inputs kinds) :
    EditMove s c now merged s.hosts (s.children.delete (·.key ∈ removed))
      (some (c.moveTo (.put sub existing inputs kinds)))
  | next {sub : Submission} {existing : List ChildRow} {kinds : List ChildKind}
    (hphase : c.phase = .put sub existing [] kinds) :
    EditMove s c now merged s.hosts s.children (some (c.moveTo (.sync sub kinds)))
  | put {sub : Submission} {existing : List ChildRow} {input : ChildInput} {inputs : List ChildInput}
    {kinds : List ChildKind} {children : ChildTable}
    (hphase : c.phase = .put sub existing (input :: inputs) kinds)
    (hput : s.putChild existing (input.toChild c.hostId sub.networkId now) merged = some children) :
    EditMove s c now merged s.hosts children (some (c.moveTo (.put sub existing inputs kinds)))

theorem editMove_of_statement (h : s.editStatement call c now merged = some s') :
    ∃ hosts children next, EditMove s c now merged hosts children next ∧
      s' = { s with hosts, children }.advance call next := by
  unfold editStatement at h
  cases hphase : c.phase with
  | loaded =>
    rw [hphase] at h
    cases h
  | update sub existing =>
    rw [hphase] at h
    dsimp only at h
    split_ifs at h
    cases h
    exact ⟨_, _, _, .update hphase, rfl⟩
  | sync sub kinds =>
    rw [hphase] at h
    cases kinds with
    | nil =>
      cases h
      exact ⟨_, _, _, .finish hphase, rfl⟩
    | cons kind kinds =>
      dsimp only at h
      cases hinputs : sub.request.inputs kind with
      | none =>
        rw [hinputs] at h
        cases h
        exact ⟨_, _, _, .skip hphase, rfl⟩
      | some inputs =>
        rw [hinputs] at h
        dsimp only at h
        split at h
        · cases h
        · rename_i ordered hordered
          cases h
          refine ⟨_, _, _, .read hphase hinputs hordered fun key hkey => ?_, rfl⟩
          obtain ⟨child, hchild, rfl⟩ := List.mem_map.mp hkey
          obtain ⟨hchild, hkind⟩ := mem_filter.mp (mem_of_mem_filter hchild)
          obtain ⟨hchild, hhost⟩ := mem_filter.mp hchild
          exact ⟨child, hchild, of_decide_eq_true hhost, of_decide_eq_true hkind, rfl⟩
  | delete sub removed existing inputs kinds =>
    rw [hphase] at h
    cases h
    exact ⟨_, _, _, .delete hphase, rfl⟩
  | put sub existing inputs kinds =>
    rw [hphase] at h
    cases inputs with
    | nil =>
      cases h
      exact ⟨_, _, _, .next hphase, rfl⟩
    | cons input inputs =>
      obtain ⟨children, hput, rfl⟩ := map_eq_some_iff.mp h
      exact ⟨_, _, _, .put hphase hput, rfl⟩

theorem same_of_notMem_touches (h : s.step l = some s')
    (htouches : hostId ∉ s.touches l) : s'.hosts.find hostId = s.hosts.find hostId ∧
      ∀ c : ChildRow, c.hostId = hostId → (c ∈ s'.children ↔ c ∈ s.children) := by
  cases l with
  | load call id =>
    rw [EditSystem.step] at h
    split_ifs at h
    obtain ⟨host, -, rfl⟩ := map_eq_some_iff.mp h
    exact ⟨rfl, fun _ _ => Iff.rfl⟩
  | submit call request versioned =>
    obtain ⟨c, -, h⟩ := bind_eq_some_iff.mp h
    split at h
    · split_ifs at h
      · cases h
        exact ⟨rfl, fun _ _ => Iff.rfl⟩
      · cases h
        exact ⟨rfl, fun _ _ => Iff.rfl⟩
    · cases h
      exact ⟨rfl, fun _ _ => Iff.rfl⟩
    · cases h
  | proceed call now merged =>
    obtain ⟨c, hc, h⟩ := bind_eq_some_iff.mp h
    obtain ⟨hosts, children, next, hmove, rfl⟩ := editMove_of_statement h
    rw [touches, hc] at htouches
    dsimp only at htouches
    show hosts.find hostId = _ ∧ ∀ child : ChildRow, child.hostId = hostId → (child ∈ children ↔ _)
    cases hmove with
    | update hphase =>
      rw [hphase] at htouches
      exact ⟨Table.find_set_of_ne (ne_of_not_mem_cons htouches), fun _ _ => Iff.rfl⟩
    | delete hphase =>
      rw [hphase] at htouches
      exact ⟨rfl, mem_delete_of_hostId (ne_of_notMem_ownersOf htouches)⟩
    | put hphase hput =>
      rw [hphase] at htouches
      refine ⟨rfl, mem_putChild_of_hostId hput ?_ (not_mem_of_not_mem_cons htouches)⟩
      rw [hostId_toChild]
      exact (ne_of_not_mem_cons htouches).symm
    | finish | skip | read | next => exact ⟨rfl, fun _ _ => Iff.rfl⟩
  | refuse call =>
    obtain ⟨c, -, rfl⟩ := map_eq_some_iff.mp h
    exact ⟨rfl, fun _ _ => Iff.rfl⟩
  | readUpsert scan id new =>
    rw [EditSystem.step] at h
    split_ifs at h
    obtain ⟨host, -, rfl⟩ := map_eq_some_iff.mp h
    exact ⟨rfl, fun _ _ => Iff.rfl⟩
  | writeUpsert scan =>
    obtain ⟨row, hrow, rfl⟩ := map_eq_some_iff.mp h
    rw [touches, hrow] at htouches
    exact ⟨Table.find_set_of_ne (ne_of_not_mem_cons htouches), fun _ _ => Iff.rfl⟩
  | writeChild child =>
    cases h
    refine ⟨rfl, mem_put_of_hostId (ne_of_not_mem_cons htouches).symm fun c hc hkey => ?_⟩
    refine ne_of_notMem_ownersOf (not_mem_of_not_mem_cons htouches) c hc ?_
    exact mem_singleton.mpr hkey
  | deleteChildren keys =>
    cases h
    exact ⟨rfl, mem_delete_of_hostId (ne_of_notMem_ownersOf htouches)⟩

theorem updatedAt_editHost (existing : TrackedHost) (edit : HostEdit) (now : Timestamp) :
    (editHost existing edit now).base.updatedAt = now := by
  unfold editHost TrackedHostBase.applyNameOf TrackedHostBase.applyName
  dsimp only
  split_ifs
  · split
    · split_ifs <;> rfl
    · rfl
  · rfl

theorem versionOf_set {row : TrackedHost}
    (ht : ((hosts.set row).find hostId).map (·.base.updatedAt) = some t) :
    (if row.id = hostId then some row.base.updatedAt
      else (hosts.find hostId).map (·.base.updatedAt)) = some t := by
  split_ifs with hid
  · obtain ⟨host, hhost, rfl⟩ := map_eq_some_iff.mp ht
    obtain ⟨hmem, hkey⟩ := Table.find_eq_some.mp hhost
    rw [Table.eq_of_mem_set hmem (hkey.trans hid.symm)]
  · rwa [Table.find_set_of_ne (Ne.symm hid)] at ht

theorem versionOf_step (h : s.step l = some s')
    (ht : s'.versionOf hostId = some t) : s.versionAfter l hostId = some t := by
  cases l with
  | load call id =>
    rw [EditSystem.step] at h
    split_ifs at h
    obtain ⟨host, -, rfl⟩ := map_eq_some_iff.mp h
    exact ht
  | submit call request versioned =>
    obtain ⟨c, -, h⟩ := bind_eq_some_iff.mp h
    split at h
    · split_ifs at h
      · cases h
        exact ht
      · cases h
        exact ht
    · cases h
      exact ht
    · cases h
  | proceed call now merged =>
    obtain ⟨c, hc, h⟩ := bind_eq_some_iff.mp h
    obtain ⟨hosts, children, next, hmove, rfl⟩ := editMove_of_statement h
    rw [versionAfter, hc]
    dsimp only
    cases hmove with
    | update hphase =>
      rw [hphase]
      have hversion := versionOf_set ht
      rwa [updatedAt_editHost] at hversion
    | finish hphase | skip hphase | read hphase | delete hphase | next hphase | put hphase =>
      rw [hphase]
      exact ht
  | refuse call =>
    obtain ⟨c, -, rfl⟩ := map_eq_some_iff.mp h
    exact ht
  | readUpsert scan id new =>
    rw [EditSystem.step] at h
    split_ifs at h
    obtain ⟨host, -, rfl⟩ := map_eq_some_iff.mp h
    exact ht
  | writeUpsert scan =>
    obtain ⟨row, hrow, rfl⟩ := map_eq_some_iff.mp h
    rw [versionAfter, hrow]
    exact versionOf_set ht
  | writeChild child =>
    cases h
    exact ht
  | deleteChildren keys =>
    cases h
    exact ht

/-- What holds of an edit under way. While the client has the host, a change has left another version;
once the version is checked, nothing has changed. -/
structure EditOk (s : EditSystem) (disturbed : Bool) (c : HostEditCall) : Prop where
  nodup : c.phase.kinds.Nodup
  later : ∀ i ∈ c.phase.inputs, i.kind ∉ c.phase.kinds
  version : c.phase = .loaded → disturbed = true → s.versionOf c.hostId ≠ some c.updatedAt
  undisturbed : c.phase ≠ .loaded → c.phase.versioned = true → disturbed = false
  known : c.phase.versioned = true → disturbed = false → ∀ child ∈ s.children,
    child.hostId = c.hostId → child.kind ∈ c.phase.kinds → child.key ∈ c.children
  removed : c.phase.versioned = true → ∀ key ∈ c.phase.removed, key ∈ c.children

theorem EditOk.of_step (h : s.step l = some s')
    {disturbed disturbed' : Bool} (hok : EditOk s disturbed c)
    (hdisturbed : disturbed' = (disturbed || s.changed s' c.hostId))
    (hnoticed : c.phase.versioned = true → c.hostId ∈ s.touches l →
      c.phase = .loaded ∧ s.versionAfter l c.hostId ≠ some c.updatedAt) :
    EditOk s' disturbed' c := by
  have hsame : c.hostId ∉ s.touches l → s.changed s' c.hostId = false := fun htouches =>
    have hframe := same_of_notMem_touches h htouches
    changed_of_same hframe.1 hframe.2
  subst hdisturbed
  refine ⟨hok.nodup, hok.later, fun hphase hd => ?_, fun hphase hversioned => ?_, ?_, hok.removed⟩
  · by_cases htouches : c.hostId ∈ s.touches l
    · intro hversion
      have hafter := versionOf_step h hversion
      exact (hnoticed (by rw [hphase]; rfl) htouches).2 hafter
    · rw [hsame htouches, Bool.or_false] at hd
      have hframe := (same_of_notMem_touches h htouches).1
      unfold versionOf
      rw [hframe]
      exact hok.version hphase hd
  · by_cases htouches : c.hostId ∈ s.touches l
    · exact absurd (hnoticed hversioned htouches).1 hphase
    · rw [hsame htouches, Bool.or_false]
      exact hok.undisturbed hphase hversioned
  · intro hversioned hd child hchild hhost hkind
    rw [Bool.or_eq_false_iff] at hd
    have hchildren := (changed_eq_false hd.2).2 child hhost
    exact hok.known hversioned hd.1 child (hchildren.mp hchild) hhost hkind

theorem kind_of_mem_inputs {request : UpdateHostRequest}
    (h : request.inputs kind = some inputs) : ∀ i ∈ inputs, i.kind = kind := by
  intro i hi
  cases kind <;>
  · obtain ⟨l, -, rfl⟩ := map_eq_some_iff.mp h
    obtain ⟨input, -, rfl⟩ := List.mem_map.mp hi
    rfl

theorem kind_setPosition (value : ℤ) (i : ChildInput) : (i.setPosition value).kind = i.kind := by
  cases i <;> rfl

theorem kind_of_mem_orderedInputs {kind' : ChildKind} {ordered : List ChildInput}
    (h : orderedInputs kind inputs existing = .ok ordered)
    (hinputs : ∀ i ∈ inputs, i.kind = kind') : ∀ i ∈ ordered, i.kind = kind' := by
  -- positions do not change the kind, and the order does not matter
  have hplaced : ∀ positions : List ℤ,
      ∀ i ∈ List.zipWith ChildInput.setPosition positions inputs, i.kind = kind' := by
    intro positions i hi
    rw [← map_uncurry_zip_eq_zipWith] at hi
    obtain ⟨⟨value, input⟩, hmem, rfl⟩ := List.mem_map.mp hi
    exact (kind_setPosition value input).trans (hinputs input (of_mem_zip hmem).2)
  unfold orderedInputs at h
  dsimp only at h
  cases hresolve : resolveAndValidateInputPositions (inputs.map fun i => (i.id, i.position))
      (existing.map fun c => (c.id, c.position)) with
  | error e =>
    rw [hresolve] at h
    cases kind with
    | ipAddress => cases h
    | service => cases h
    | port =>
      cases h
      exact hinputs
  | ok positions =>
    rw [hresolve] at h
    cases kind with
    | ipAddress =>
      cases h
      exact hplaced positions
    | port =>
      cases h
      exact hinputs
    | service =>
      cases h
      intro i hi
      rcases mem_append.mp hi with hi | hi
      · exact hplaced positions i (mem_of_mem_filter hi)
      · exact hplaced positions i (mem_of_mem_filter hi)

theorem mem_of_mem_putChild (h : s.putChild existing child merged = some children) {c : ChildRow}
    (hc : c ∈ children) (hkind : c.kind ≠ child.kind) : c ∈ s.children := by
  rcases putChild_cases h with ⟨r, hkey, -, rfl⟩ | ⟨r, hkind', -, rfl, -⟩ | hinsert
  · refine (Table.mem_set_of_ne fun hsame => ?_).mp hc
    exact hkind (congrArg Prod.fst (hsame.trans hkey))
  · refine (Table.mem_set_of_ne fun hsame => ?_).mp hc
    exact hkind ((congrArg Prod.fst hsame).trans hkind')
  · rw [Table.mem_insertMany hinsert, mem_singleton] at hc
    rcases hc with hc | rfl
    · exact hc
    · exact absurd rfl hkind

theorem EditOk.move {next : HostEditCall} {disturbed : Bool}
    (hok : EditOk s disturbed c) (hmove : EditMove s c now merged hosts children (some next))
    (hhosts : s'.hosts = hosts) (hchildren : s'.children = children) : EditOk s' disturbed next := by
  cases hmove with
  | update hphase =>
    obtain ⟨hnodup, hlater, -, hundisturbed, hknown, -⟩ := hok
    rw [hphase] at hnodup hlater hundisturbed hknown
    refine ⟨hnodup, fun i hi => absurd hi not_mem_nil, fun h => EditPhase.noConfusion h,
      fun _ => hundisturbed (fun h => EditPhase.noConfusion h), ?_,
      fun _ key hkey => absurd hkey not_mem_nil⟩
    rw [hchildren]
    exact hknown
  | skip hphase =>
    obtain ⟨hnodup, hlater, -, hundisturbed, hknown, -⟩ := hok
    rw [hphase] at hnodup hlater hundisturbed hknown
    refine ⟨(nodup_cons.mp hnodup).2, fun i hi => absurd hi not_mem_nil,
      fun h => EditPhase.noConfusion h, fun _ => hundisturbed (fun h => EditPhase.noConfusion h), ?_,
      fun _ key hkey => absurd hkey not_mem_nil⟩
    rw [hchildren]
    intro hversioned hd child hchild hhost hkind
    exact hknown hversioned hd child hchild hhost (mem_cons_of_mem _ hkind)
  | @read _ kind _ _ _ _ _ hphase hinputs hordered hremoved =>
    obtain ⟨hnodup, hlater, -, hundisturbed, hknown, -⟩ := hok
    rw [hphase] at hnodup hlater hundisturbed hknown
    have hundisturbed := hundisturbed (fun h => EditPhase.noConfusion h)
    refine ⟨(nodup_cons.mp hnodup).2, fun i hi => ?_, fun h => EditPhase.noConfusion h,
      fun _ => hundisturbed, ?_, fun hversioned key hkey => ?_⟩
    · rw [kind_of_mem_orderedInputs hordered (kind_of_mem_inputs hinputs) i hi]
      exact (nodup_cons.mp hnodup).1
    · rw [hchildren]
      intro hversioned hd child hchild hhost hkind
      exact hknown hversioned hd child hchild hhost (mem_cons_of_mem _ hkind)
    · obtain ⟨child, hchild, hhost, hkind, rfl⟩ := hremoved key hkey
      refine hknown hversioned (hundisturbed hversioned) child hchild hhost ?_
      exact mem_cons.mpr (.inl hkind)
  | delete hphase =>
    obtain ⟨hnodup, hlater, -, hundisturbed, hknown, -⟩ := hok
    rw [hphase] at hnodup hlater hundisturbed hknown
    refine ⟨hnodup, hlater, fun h => EditPhase.noConfusion h,
      fun _ => hundisturbed (fun h => EditPhase.noConfusion h), ?_,
      fun _ key hkey => absurd hkey not_mem_nil⟩
    rw [hchildren]
    intro hversioned hd child hchild
    exact hknown hversioned hd child (Table.mem_delete.mp hchild).1
  | next hphase =>
    obtain ⟨hnodup, hlater, -, hundisturbed, hknown, -⟩ := hok
    rw [hphase] at hnodup hlater hundisturbed hknown
    refine ⟨hnodup, hlater, fun h => EditPhase.noConfusion h,
      fun _ => hundisturbed (fun h => EditPhase.noConfusion h), ?_,
      fun _ key hkey => absurd hkey not_mem_nil⟩
    rw [hchildren]
    exact hknown
  | put hphase hput =>
    obtain ⟨hnodup, hlater, -, hundisturbed, hknown, -⟩ := hok
    rw [hphase] at hnodup hlater hundisturbed hknown
    refine ⟨hnodup, fun i hi => hlater i (mem_cons_of_mem _ hi), fun h => EditPhase.noConfusion h,
      fun _ => hundisturbed (fun h => EditPhase.noConfusion h), ?_,
      fun _ key hkey => absurd hkey not_mem_nil⟩
    rw [hchildren]
    intro hversioned hd child hchild hhost hkind
    refine hknown hversioned hd child (mem_of_mem_putChild hput hchild ?_) hhost hkind
    rw [kind_toChild]
    exact fun hsame => hlater _ mem_cons_self (hsame ▸ hkind)

/-- What holds in every state of a run in which changes are noticed. -/
structure Sound (s : EditSystem) (disturbed : ℕ → Bool) : Prop where
  numbers : (s.edits.map Prod.fst).Nodup
  edits : ∀ p ∈ s.edits, EditOk s (disturbed p.1) p.2

theorem mem_of_edit (h : s.edit call = some c) :
    (call, c) ∈ s.edits := by
  obtain ⟨⟨call', c'⟩, hfind, rfl⟩ := map_eq_some_iff.mp h
  have hcall : call' = call := by simpa using find?_some hfind
  rw [← hcall]
  exact mem_of_find?_eq_some hfind

variable {disturbed : ℕ → Bool}

theorem disturb_eq (hs : s.Sound disturbed) (h : s.step l = some s') (hp : p ∈ s.edits) :
    s.disturb l s' disturbed p.1 =
      (disturbed p.1 || (decide (l.actor ≠ some p.1) && s.changed s' p.2.hostId)) := by
  have hloads : l.loads p.1 = false := by
    cases l with
    | load call id =>
      refine decide_eq_false fun hcall => ?_
      rw [EditSystem.step] at h
      split_ifs at h with hfree
      have hnone := not_isSome_iff_eq_none.mp hfree
      rw [hcall, edit, map_eq_none_iff, find?_eq_none] at hnone
      exact absurd (decide_eq_true rfl) (hnone p hp)
    | _ => rfl
  have hany : (s.edits.any fun q => q.1 = p.1 && s.changed s' q.2.hostId) =
      s.changed s' p.2.hostId := by
    rw [Bool.eq_iff_iff, List.any_eq_true]
    constructor
    · rintro ⟨q, hq, hand⟩
      rw [Bool.and_eq_true, decide_eq_true_eq] at hand
      have hsame : q = p := inj_on_of_nodup_map hs.numbers hq hp hand.1
      exact hsame ▸ hand.2
    · exact fun hchanged => ⟨p, hp, by rw [hchanged, decide_eq_true rfl]; rfl⟩
  unfold disturb
  rw [hloads, hany]
  rfl

theorem Sound.other (hs : s.Sound disturbed) (h : s.step l = some s')
    (hnoticed : s.Noticed l) (hp : p ∈ s.edits)
    (hactor : l.actor ≠ some p.1) : EditOk s' (s.disturb l s' disturbed p.1) p.2 := by
  refine (hs.edits p hp).of_step h ?_ (hnoticed p hp hactor)
  rw [disturb_eq hs h hp, decide_eq_true hactor, Bool.true_and]

theorem Sound.advance (hs : s.Sound disturbed) (h : s.step l = some s')
    (hnoticed : s.Noticed l) {next : Option HostEditCall}
    (hactor : ∀ call', l.actor = some call' → call' = call)
    (hedits : s'.edits = (next.map (call, ·)).toList ++ s.edits.filter (·.1 ≠ call))
    (hnext : ∀ c ∈ next, EditOk s' (s.disturb l s' disturbed call) c) :
    s'.Sound (s.disturb l s' disturbed) := by
  have hfree : ∀ p ∈ s.edits.filter (·.1 ≠ call), p ∈ s.edits ∧ p.1 ≠ call := by
    intro p hp
    obtain ⟨hp, hne⟩ := mem_filter.mp hp
    exact ⟨hp, of_decide_eq_true hne⟩
  refine ⟨?_, fun p hp => ?_⟩
  · rw [hedits, map_append]
    have hrest : ((s.edits.filter (·.1 ≠ call)).map Prod.fst).Nodup :=
      hs.numbers.sublist (filter_sublist.map _)
    cases next with
    | none => exact hrest
    | some c =>
      refine nodup_cons.mpr ⟨fun hmem => ?_, hrest⟩
      obtain ⟨p, hp, hcall⟩ := List.mem_map.mp hmem
      exact (hfree p hp).2 hcall
  · rw [hedits] at hp
    rcases mem_append.mp hp with hp | hp
    · rw [mem_toList] at hp
      obtain ⟨c, hc, rfl⟩ := map_eq_some_iff.mp hp
      exact hnext c hc
    · obtain ⟨hp, hne⟩ := hfree p hp
      exact hs.other h hnoticed hp fun hp' => hne (hactor p.1 hp')

theorem EditOk.submit {d : Bool} (hok : EditOk s d c) (hphase : c.phase = .loaded)
    {sub : Submission} {existing : TrackedHost}
    (hversion : sub.versioned = true → s.versionOf c.hostId = some c.updatedAt) :
    EditOk s d (c.moveTo (.update sub existing)) := by
  obtain ⟨hnodup, hlater, hversion', -, hknown, -⟩ := hok
  rw [hphase] at hnodup hknown
  refine ⟨hnodup, fun i hi => absurd hi not_mem_nil, fun h => EditPhase.noConfusion h,
    fun _ hversioned => ?_, fun _ => hknown rfl, fun _ key hkey => absurd hkey not_mem_nil⟩
  by_contra hd
  exact hversion' hphase (Bool.of_not_eq_false hd) (hversion hversioned)

theorem Sound.step (hs : s.Sound disturbed) (hnoticed : s.Noticed l)
    (h : s.step l = some s') : s'.Sound (s.disturb l s' disturbed) := by
  have hothers : s'.edits = s.edits → l.actor = none → s'.Sound (s.disturb l s' disturbed) := by
    intro hedits hactor
    refine ⟨hedits ▸ hs.numbers, fun p hp => hs.other h hnoticed (hedits ▸ hp) ?_⟩
    rw [hactor]
    exact (some_ne_none p.1).symm
  -- an edit that goes on without a write is as it was
  have hkept : ∀ {call c}, s.edit call = some c → l.actor = none →
      EditOk s' (s.disturb l s' disturbed call) c := by
    intro call c hc hactor
    refine hs.other h hnoticed (mem_of_edit hc) ?_
    rw [hactor]
    exact (some_ne_none call).symm
  have hstep := h
  cases l with
  | load call id =>
    rw [EditSystem.step] at h
    split_ifs at h with hfree
    obtain ⟨host, hhost, rfl⟩ := map_eq_some_iff.mp h
    refine hs.advance hstep hnoticed (fun _ hactor => nomatch hactor) rfl fun c hc => ?_
    cases hc
    have hundisturbed : ∀ after, s.disturb (.load call id) after disturbed call = false := by
      intro after
      have hloads : (EditStep.load call id).loads call = true := decide_eq_true rfl
      unfold disturb
      rw [hloads]
      rfl
    rw [hundisturbed]
    have hnodup : EditPhase.loaded.kinds.Nodup := by decide
    refine ⟨hnodup, fun i hi => absurd hi not_mem_nil, fun _ hd => absurd hd Bool.false_ne_true,
      fun _ _ => rfl, fun _ _ child hchild hhost _ => ?_, fun _ key hkey => absurd hkey not_mem_nil⟩
    exact List.mem_map_of_mem (mem_filter.mpr ⟨hchild, decide_eq_true hhost⟩)
  | submit call request versioned =>
    obtain ⟨c, hc, h⟩ := bind_eq_some_iff.mp h
    split at h
    · rename_i existing hphase hfind
      split_ifs at h with hconflict
      · cases h
        exact hs.advance hstep hnoticed (fun _ hactor => nomatch hactor) rfl
          fun c' hc' => nomatch hc'
      · cases h
        refine hs.advance hstep hnoticed (fun _ hactor => nomatch hactor) rfl fun c' hc' => ?_
        cases hc'
        have hok := hkept hc rfl
        refine EditOk.submit hok hphase fun hversioned => ?_
        have hsame : existing.base.updatedAt = c.updatedAt := by
          by_contra hne
          exact hconflict (Bool.and_eq_true_iff.mpr ⟨hversioned, decide_eq_true hne⟩)
        show (s.hosts.find c.hostId).map _ = _
        rw [hfind, ← hsame]
        rfl
    · cases h
      exact hs.advance hstep hnoticed (fun _ hactor => nomatch hactor) rfl fun c' hc' => nomatch hc'
    · cases h
  | proceed call now merged =>
    obtain ⟨c, hc, h⟩ := bind_eq_some_iff.mp h
    obtain ⟨hosts, children, next, hmove, rfl⟩ := editMove_of_statement h
    refine hs.advance hstep hnoticed (fun _ hactor => (some.inj hactor).symm) rfl ?_
    intro c' hc'
    have hmem := mem_of_edit hc
    have hsame := disturb_eq hs hstep hmem
    rw [show (EditStep.proceed call now merged).actor = some call from rfl,
      decide_eq_false (not_not.mpr rfl), Bool.false_and, Bool.or_false] at hsame
    rw [hsame]
    cases hc'
    exact (hs.edits _ hmem).move hmove rfl rfl
  | refuse call =>
    obtain ⟨c, -, rfl⟩ := map_eq_some_iff.mp h
    exact hs.advance hstep hnoticed (fun _ hactor => nomatch hactor) rfl fun c' hc' => nomatch hc'
  | readUpsert scan id new =>
    rw [EditSystem.step] at h
    split_ifs at h
    obtain ⟨host, -, rfl⟩ := map_eq_some_iff.mp h
    exact hothers rfl rfl
  | writeUpsert scan =>
    obtain ⟨row, -, rfl⟩ := map_eq_some_iff.mp h
    exact hothers rfl rfl
  | writeChild child =>
    cases h
    exact hothers rfl rfl
  | deleteChildren keys =>
    cases h
    exact hothers rfl rfl

theorem Sound.caught (hs : s.Sound disturbed) (l : EditStep) : s.Caught disturbed l := by
  refine ⟨fun call hcall => ?_, fun key hkey => ?_⟩
  · cases l with
    | proceed call' now merged =>
      obtain ⟨c, hc, hphase⟩ := bind_eq_some_iff.mp hcall
      split at hphase
      · rename_i sub hsync
        split_ifs at hphase with hversioned
        cases hphase
        have hok := hs.edits _ (mem_of_edit hc)
        refine hok.undisturbed ?_ ?_
        · rw [hsync]
          exact fun h => EditPhase.noConfusion h
        · rw [hsync]
          exact hversioned
      · cases hphase
    | _ => cases hcall
  · cases l with
    | proceed call now merged =>
      unfold removes at hkey ⊢
      dsimp only at hkey ⊢
      cases hc : s.edit call with
      | none =>
        rw [hc] at hkey
        exact absurd hkey not_mem_nil
      | some c =>
        rw [hc] at hkey
        dsimp only at hkey ⊢
        split_ifs at hkey ⊢ with hversioned
        · exact (hs.edits _ (mem_of_edit hc)).removed hversioned key hkey
        · exact absurd hkey not_mem_nil
    | _ => exact absurd hkey not_mem_nil

end EditSystem

/-- In every run in which a host that a client has loaded, or one of its children, is written by others
only so that the host gets another version, and not after the version is checked, an edit succeeds
only if nobody else has changed the host or its children, and removes only what its client has
loaded. -/
theorem caught_of_noticed (hosts : EntityTable TrackedHostBase) (children : ChildTable)
    (s : EditSystem × (ℕ → Bool))
    (hs : ((editLts hosts children).withHistory (fun _ => false) EditSystem.disturb).ReachableVia
      (fun s l => s.1.Noticed l) s) (l : EditStep) : s.1.Caught s.2 l := by
  have hsound : s.1.Sound s.2 := by
    refine hs.invariant (P := fun s => s.1.Sound s.2)
      ⟨nodup_nil, fun p hp => absurd hp not_mem_nil⟩ ?_
    intro s l s' _ hsound hnoticed hstep
    obtain ⟨hstep, hrecord⟩ := Lts.step_withHistory hstep
    rw [hrecord]
    exact hsound.step hnoticed hstep
  exact hsound.caught l

section Router

def routerHost : TrackedHost :=
  ⟨30, 1, 1, none, none, {
    name := "router", nameSource := .hostname, networkId := 5, hostname := some "router"
    description := none, source := .discovery, virtualizationMetadata := none
    virtualizationServiceId := none, hidden := false, texts := fun _ => none
    updatedAt := 1, lastSeenAt := 1, lastDiscoveryId := none, firstDiscoveryId := none }⟩

def routerAddress (id : Uuid) (address : BitVec 32) : ChildRow :=
  .ipAddress ⟨id, 1, 1, none, none, ⟨5, 30, 8, .v4 address, none, none, 0, 1⟩⟩

def routerHosts : EntityTable TrackedHostBase := ⟨[routerHost], by decide⟩

def routerChildren : ChildTable := ⟨[routerAddress 40 0x0A000001#32], by decide⟩

def routerRequest : UpdateHostRequest where
  edit := ⟨"router", some "router", some "uplink", none, none, false⟩
  ipAddresses := some [⟨40, 8, .v4 0x0A000001#32, none, none, none⟩]

def routerLts : Lts (EditSystem × (ℕ → Bool)) EditStep :=
  (editLts routerHosts routerChildren).withHistory (fun _ => false) EditSystem.disturb

def conflictRun : List EditStep :=
  [.load 0 30, .load 1 30, .submit 1 routerRequest true, .proceed 1 5 none, .submit 0 routerRequest true]

theorem caught_conflict : ∃ s, routerLts.run routerLts.init conflictRun = some s ∧
    s.1.Caught s.2 (.proceed 1 6 none) := by
  obtain ⟨s, hs⟩ := isSome_iff_exists.mp
    (show (routerLts.run routerLts.init conflictRun).isSome = true by decide +kernel)
  have hreach : routerLts.ReachableVia (fun s l => s.1.Noticed l) s :=
    Lts.reachableVia_of_run .init (by decide +kernel) hs
  exact ⟨s, hs, caught_of_noticed routerHosts routerChildren s hreach _⟩

def overtakenRun : List EditStep :=
  [.load 0 30, .writeChild (routerAddress 41 0x0A000002#32), .submit 0 routerRequest true,
    .proceed 0 5 none, .proceed 0 6 none, .proceed 0 7 none, .proceed 0 8 none, .proceed 0 9 none,
    .proceed 0 10 none, .proceed 0 11 none]

/-- The edit passes its check, takes the address away again and succeeds. -/
theorem not_caught : ¬ ∀ (hosts : EntityTable TrackedHostBase) (children : ChildTable)
    (s : EditSystem × (ℕ → Bool)),
    ((editLts hosts children).withHistory (fun _ => false) EditSystem.disturb).Reachable s →
      ∀ l, s.1.Caught s.2 l := by
  intro h
  have hrun : ∃ s, routerLts.run routerLts.init overtakenRun = some s ∧
      s.1.succeeds (.proceed 0 12 none) = some 0 ∧ s.2 0 = true ∧
        routerAddress 41 0x0A000002#32 ∉ s.1.children.rows :=
    ⟨_, rfl, by decide +kernel, by decide +kernel, by decide +kernel⟩
  obtain ⟨s, hs, hsucceeds, hdisturbed, -⟩ := hrun
  have hcaught := h routerHosts routerChildren s (Lts.reachable_of_run hs) (.proceed 0 12 none)
  exact absurd ((hcaught.1 0 hsucceeds).symm.trans hdisturbed) Bool.false_ne_true

end Router

end Scanopy
