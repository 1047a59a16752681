import Scanopy.Hosts.Scans
import Scanopy.Lib.Ladder

/-! A payload that is upserted again and again. Every field is filled once; the name is offered by
two candidates, which displace each other in every upsert where both stand on one rung. -/

namespace Scanopy
open Ladder TrackedHostBase

def HostName.rank (n : HostName) : ℕ := n.source.rank

/-- Whether `upsert_host` publishes an Updated event. -/
def UpsertedHost.hasUpdates (u : UpsertedHost) : Bool := HostField.all.any u.fills

namespace TrackedHostBase

def hostName (b : TrackedHostBase) : HostName := ⟨b.name, b.nameSource⟩

def withName (b : TrackedHostBase) (n : HostName) : TrackedHostBase :=
  { b with name := n.value, nameSource := n.source }

def hostnameCandidate (b : TrackedHostBase) : Option HostName := b.hostname.bind HostName.fromHostname

variable (b : TrackedHostBase)

@[simp] theorem hostName_withName (n : HostName) : (b.withName n).hostName = n := rfl

@[simp] theorem withName_hostName : b.withName b.hostName = b := rfl

theorem applyNameOf_eq_offer (candidate : Option HostName) :
    b.applyNameOf candidate = (b.withName (offerOption HostName.rank b.hostName candidate),
        decide (offerOption HostName.rank b.hostName candidate ≠ b.hostName)) := by
  cases candidate with
  | none => simp [applyNameOf, offerOption]
  | some c =>
    rw [applyNameOf, applyName, offerOption]
    by_cases hlow : c.rank < b.hostName.rank
    · have hsource : c.source.rank < b.nameSource.rank := hlow
      rw [if_pos hsource, offer_of_lt hlow]
      simp
    · have hsource : ¬c.source.rank < b.nameSource.rank := hlow
      rw [if_neg hsource, offer_of_le (not_lt.mp hlow)]
      by_cases hsame : b.name = c.value ∧ b.nameSource = c.source
      · have heq : c = b.hostName := by
          cases c
          simp_all [hostName]
        rw [if_pos hsame, heq]
        simp
      · have hne : c ≠ b.hostName := by
          rintro rfl
          exact hsame ⟨rfl, rfl⟩
        rw [if_neg hsame, decide_eq_true hne]
        rfl

def renames (candidate : Option HostName) : Bool :=
  decide (offerOption HostName.rank b.hostName candidate ≠ b.hostName) ||
    decide (pass HostName.rank b.hostName candidate b.hostnameCandidate ≠
      offerOption HostName.rank b.hostName candidate)

theorem upsertName_eq_pass (candidate : Option HostName) :
    b.upsertName candidate =
      (b.withName (pass HostName.rank b.hostName candidate b.hostnameCandidate),
        b.renames candidate) := by
  unfold upsertName
  rw [applyNameOf_eq_offer]
  dsimp only
  rw [applyNameOf_eq_offer]
  rfl

theorem renames_eq_false {candidate : Option HostName} :
    b.renames candidate = false ↔ offerOption HostName.rank b.hostName candidate = b.hostName ∧
        pass HostName.rank b.hostName candidate b.hostnameCandidate = b.hostName := by
  rw [renames, Bool.or_eq_false_iff, decide_eq_false_iff_not, not_not, decide_eq_false_iff_not,
    not_not]
  refine and_congr_right fun h => ?_
  rw [h]

end TrackedHostBase

section Upsert
variable (existing new : TrackedHost)

def upsertHostname : Option String :=
  if existing.base.hostname.isNone && new.base.hostname.any (· ≠ "") then new.base.hostname
  else existing.base.hostname

def upsertedName : HostName :=
  pass HostName.rank existing.base.hostName new.base.nameCandidate
    ((upsertHostname existing new).bind HostName.fromHostname)

def upsertTexts (column : HostText) : Option String :=
  (existing.base.texts column).or (new.base.texts column)

def upsertSource : EntitySource :=
  if new.base.source = .discovery then .discovery else existing.base.source

theorem upsertHost_host :
    (upsertHost existing new).host = { existing with base :=
      { existing.base.withName (upsertedName existing new) with
        lastSeenAt := new.base.lastSeenAt
        hostname := upsertHostname existing new
        texts := upsertTexts existing new
        source := upsertSource existing new } } := by
  unfold upsertHost
  dsimp only
  rw [upsertName_eq_pass]
  have htexts : (fun column => if (existing.base.texts column).isNone &&
      (new.base.texts column).isSome then new.base.texts column else existing.base.texts column) =
        upsertTexts existing new := by
    funext column
    unfold upsertTexts
    cases existing.base.texts column <;> cases new.base.texts column <;> rfl
  have hsource : (if decide (new.base.source = .discovery) &&
      decide (existing.base.source ≠ .discovery) then EntitySource.discovery
        else existing.base.source) = upsertSource existing new := by
    unfold upsertSource
    by_cases hnew : new.base.source = .discovery <;>
      by_cases hold : existing.base.source = .discovery <;> simp [hnew, hold]
  dsimp only
  rw [htexts, hsource]
  rfl

theorem upsertHost_fills :
    (upsertHost existing new).fills = fun
      | .hostname => existing.base.hostname.isNone && new.base.hostname.any (· ≠ "")
      | .name | .nameSource =>
        { existing.base with hostname := upsertHostname existing new }.renames new.base.nameCandidate
      | .text column => (existing.base.texts column).isNone && (new.base.texts column).isSome
      | .source => decide (new.base.source = .discovery) &&
          decide (existing.base.source ≠ .discovery)
      | _ => false := by
  unfold upsertHost
  dsimp only
  rw [upsertName_eq_pass]
  rfl

theorem HostField.mem_all (f : HostField) : f ∈ HostField.all := by
  cases f with
  | text column => cases column <;> decide
  | _ => decide

theorem hasUpdates_eq_false :
    (upsertHost existing new).hasUpdates = false ↔
      offerOption HostName.rank existing.base.hostName new.base.nameCandidate =
        existing.base.hostName ∧
      upsertedName existing new = existing.base.hostName ∧
      upsertHostname existing new = existing.base.hostname ∧
      upsertTexts existing new = existing.base.texts ∧
      upsertSource existing new = existing.base.source := by
  have hfills : (upsertHost existing new).hasUpdates = false ↔
      ∀ f, (upsertHost existing new).fills f = false := by
    rw [UpsertedHost.hasUpdates, List.any_eq_false]
    exact ⟨fun h f => Bool.eq_false_iff.mpr (h f f.mem_all),
      fun h f _ => Bool.eq_false_iff.mp (h f)⟩
  have hnamed : { existing.base with hostname := upsertHostname existing new }.renames
      new.base.nameCandidate = false ↔
        offerOption HostName.rank existing.base.hostName new.base.nameCandidate =
          existing.base.hostName ∧ upsertedName existing new = existing.base.hostName :=
    renames_eq_false _
  have hhostname : (existing.base.hostname.isNone && new.base.hostname.any (· ≠ "")) = false ↔
      upsertHostname existing new = existing.base.hostname := by
    unfold upsertHostname
    cases hold : existing.base.hostname with
    | some h => simp
    | none =>
      cases new.base.hostname with
      | none => simp
      | some h => by_cases hempty : h = "" <;> simp [hempty]
  have htexts : (∀ column, ((existing.base.texts column).isNone &&
      (new.base.texts column).isSome) = false) ↔
        upsertTexts existing new = existing.base.texts := by
    rw [funext_iff]
    refine forall_congr' fun column => ?_
    unfold upsertTexts
    cases existing.base.texts column <;> cases new.base.texts column <;> simp
  have hsource : (decide (new.base.source = .discovery) &&
      decide (existing.base.source ≠ .discovery)) = false ↔
        upsertSource existing new = existing.base.source := by
    unfold upsertSource
    by_cases hnew : new.base.source = .discovery
    · by_cases hold : existing.base.source = .discovery
      · simp [hnew, hold]
      · simp [hnew, hold, Ne.symm hold]
    · simp [hnew]
  rw [hfills, upsertHost_fills, ← and_assoc, ← hnamed, ← hhostname, ← htexts, ← hsource]
  constructor
  · exact fun h => ⟨h .name, h .hostname, fun column => h (.text column), h .source⟩
  · rintro ⟨hname, hhost, htext, hsource⟩ f
    cases f with
    | name => exact hname
    | nameSource => exact hname
    | hostname => exact hhost
    | text column => exact htext column
    | source => exact hsource
    | _ => rfl

def SameButSeen (existing after : TrackedHost) : Prop :=
  { after with base := { after.base with lastSeenAt := existing.base.lastSeenAt } } = existing

theorem sameButSeen_iff :
    SameButSeen existing (upsertHost existing new).host ↔
      upsertedName existing new = existing.base.hostName ∧
      upsertHostname existing new = existing.base.hostname ∧
      upsertTexts existing new = existing.base.texts ∧
      upsertSource existing new = existing.base.source := by
  rw [SameButSeen, upsertHost_host]
  constructor
  · intro h
    refine ⟨congrArg (fun r : TrackedHost => r.base.hostName) h,
      congrArg (fun r : TrackedHost => r.base.hostname) h,
      congrArg (fun r : TrackedHost => r.base.texts) h,
      congrArg (fun r : TrackedHost => r.base.source) h⟩
  · rintro ⟨hname, hhostname, htexts, hsource⟩
    rw [hname, hhostname, htexts, hsource]
    rfl

theorem upsertHostname_again :
    upsertHostname (upsertHost existing new).host new = upsertHostname existing new := by
  have hhost : (upsertHost existing new).host.base.hostname = upsertHostname existing new := by
    rw [upsertHost_host]
  rw [upsertHostname, hhost]
  unfold upsertHostname
  cases existing.base.hostname with
  | some h => simp
  | none =>
    cases new.base.hostname with
    | none => simp
    | some h => by_cases hempty : h = "" <;> simp [hempty]

theorem upsertedName_again :
    upsertedName (upsertHost existing new).host new = upsertedName existing new := by
  have hname : (upsertHost existing new).host.base.hostName = upsertedName existing new := by
    rw [upsertHost_host]
    rfl
  rw [upsertedName, hname, upsertHostname_again]
  exact pass_pass _ _ _

theorem upsertHost_upsertHost :
    (upsertHost (upsertHost existing new).host new).host = (upsertHost existing new).host := by
  have htexts : upsertTexts (upsertHost existing new).host new = upsertTexts existing new := by
    have htexts : (upsertHost existing new).host.base.texts = upsertTexts existing new := by
      rw [upsertHost_host]
    funext column
    rw [upsertTexts, htexts]
    unfold upsertTexts
    cases existing.base.texts column <;> cases new.base.texts column <;> rfl
  have hsource : upsertSource (upsertHost existing new).host new = upsertSource existing new := by
    have hsource : (upsertHost existing new).host.base.source = upsertSource existing new := by
      rw [upsertHost_host]
    rw [upsertSource, hsource]
    unfold upsertSource
    split_ifs <;> rfl
  rw [upsertHost_host (upsertHost existing new).host new, upsertedName_again, upsertHostname_again,
    htexts, hsource, upsertHost_host]
  rfl

def NamesDispute : Prop :=
  ∃ c c', new.base.nameCandidate = some c ∧
    (upsertHostname existing new).bind HostName.fromHostname = some c' ∧
    existing.base.hostName.rank ≤ c'.rank ∧ c.rank = c'.rank ∧ c ≠ c'

def RenamesPerson : Prop :=
  existing.base.nameSource = .manual ∧
    ∃ c, new.base.nameCandidate = some c ∧ c.source = .manual ∧ c.value ≠ existing.base.name

theorem hasUpdates_again_iff :
    (upsertHost (upsertHost existing new).host new).hasUpdates = true ↔
      NamesDispute existing new := by
  have hsame := (sameButSeen_iff (upsertHost existing new).host new).mp (by
    rw [SameButSeen, upsertHost_upsertHost])
  rw [← Bool.not_eq_false, hasUpdates_eq_false, and_iff_left hsame]
  have hname : (upsertHost existing new).host.base.hostName = upsertedName existing new := by
    rw [upsertHost_host]
    rfl
  rw [hname]
  exact offerOption_pass_ne_iff

theorem hasUpdates_of_sameButSeen (hsame : SameButSeen existing (upsertHost existing new).host)
    (hupdates : (upsertHost existing new).hasUpdates = true) : NamesDispute existing new := by
  have hrest := (sameButSeen_iff existing new).mp hsame
  rw [← Bool.not_eq_false, hasUpdates_eq_false, and_iff_left hrest] at hupdates
  obtain ⟨c, hc, hx, hrank, hne⟩ := pass_eq_self_iff.mp ⟨hrest.1, fun h => hupdates h.1⟩
  exact ⟨c, _, hc, hx, le_rfl, hrank, hne⟩

theorem sameButSeen_of_not_hasUpdates (h : (upsertHost existing new).hasUpdates = false) :
    SameButSeen existing (upsertHost existing new).host :=
  (sameButSeen_iff existing new).mpr ((hasUpdates_eq_false existing new).mp h).2

/-- What is asked of an upsert: a second one stores the same row and is silent, an event means a
change, and the name does not fall on its ladder or lose a name given by a person. -/
structure UpsertSettles : Prop where
  same : (upsertHost (upsertHost existing new).host new).host = (upsertHost existing new).host
  silent : (upsertHost (upsertHost existing new).host new).hasUpdates = false
  honest : (upsertHost existing new).hasUpdates = true ↔
    ¬SameButSeen existing (upsertHost existing new).host
  rank : existing.base.nameSource.rank ≤ (upsertHost existing new).host.base.nameSource.rank
  manual : existing.base.nameSource = .manual →
    (upsertHost existing new).host.base.name = existing.base.name

theorem rank_le_upsertHost :
    existing.base.nameSource.rank ≤ (upsertHost existing new).host.base.nameSource.rank := by
  have hrank : existing.base.hostName.rank ≤ (upsertedName existing new).rank :=
    rank_le_pass existing.base.hostName _ _
  rw [upsertHost_host]
  exact hrank

theorem name_upsertHost_of_manual (hmanual : existing.base.nameSource = .manual) :
    (upsertHost existing new).host.base.name = existing.base.name ↔
      ¬RenamesPerson existing new := by
  have hrank : existing.base.hostName.rank = 5 := congrArg HostNameSource.rank hmanual
  have hpass : upsertedName existing new =
      offerOption HostName.rank existing.base.hostName new.base.nameCandidate := by
    unfold upsertedName Ladder.pass
    cases hhostname : (upsertHostname existing new).bind HostName.fromHostname with
    | none => rfl
    | some c' =>
      have hsource : c'.rank = 3 := by
        obtain ⟨h, -, hc'⟩ := Option.bind_eq_some_iff.mp hhostname
        rw [HostName.fromHostname, HostName.nonBlank] at hc'
        split_ifs at hc'
        cases hc'
        rfl
      refine offer_of_lt (lt_of_lt_of_le ?_ (rank_le_offerOption _ _))
      rw [hrank, hsource]
      decide
  have hname : (upsertHost existing new).host.base.name = (upsertedName existing new).value := by
    rw [upsertHost_host]
    rfl
  rw [hname, hpass, RenamesPerson, and_iff_right hmanual]
  cases new.base.nameCandidate with
  | none => simp [offerOption, hostName]
  | some c =>
    by_cases hc : c.source = .manual
    · have htaken : offerOption HostName.rank existing.base.hostName (some c) = c := by
        refine offer_of_le ?_
        rw [hrank, HostName.rank, hc]
        decide
      rw [htaken]
      simp [hc]
    · have hkept : offerOption HostName.rank existing.base.hostName (some c) =
          existing.base.hostName := by
        refine offer_of_lt ?_
        rw [hrank, HostName.rank]
        revert hc
        cases c.source <;> decide
      rw [hkept]
      simp [hc, hostName]

theorem upsertSettles_iff :
    UpsertSettles existing new ↔ ¬NamesDispute existing new ∧ ¬RenamesPerson existing new := by
  constructor
  · intro h
    constructor
    · rw [← hasUpdates_again_iff, h.silent]
      exact Bool.false_ne_true
    · exact fun hperson =>
        (name_upsertHost_of_manual existing new hperson.1).mp (h.manual hperson.1) hperson
  · rintro ⟨hdispute, hperson⟩
    refine ⟨upsertHost_upsertHost existing new, ?_, ?_, rank_le_upsertHost existing new, ?_⟩
    · rw [← hasUpdates_again_iff] at hdispute
      exact Bool.eq_false_iff.mpr hdispute
    · constructor
      · exact fun hupdates hsame =>
          hdispute (hasUpdates_of_sameButSeen existing new hsame hupdates)
      · intro hchanged
        by_contra hsilent
        exact hchanged (sameButSeen_of_not_hasUpdates existing new (Bool.eq_false_iff.mpr hsilent))
    · exact fun hmanual => (name_upsertHost_of_manual existing new hmanual).mpr hperson

/-- A payload whose rung the server has lowered renames no person's host. -/
theorem not_renamesPerson_of_clamped (payload : TrackedHostBase)
    (h : new.base = payload.clampNameSource .integration) : ¬RenamesPerson existing new := by
  rintro ⟨-, c, hc, hmanual, -⟩
  rw [nameCandidate, HostName.nonBlank] at hc
  split_ifs at hc
  cases hc
  rw [h, clampNameSource] at hmanual
  split_ifs at hmanual with hlow
  have hsource : payload.nameSource = .manual := hmanual
  rw [hsource] at hlow
  exact absurd hlow (by decide)

end Upsert

section Printer

def storedPrinter : TrackedHost := ⟨1, 0, 0, none, none, {
  name := "printer.lan"
  nameSource := .hostname
  networkId := 2
  hostname := some "printer.lan"
  description := none
  source := .discovery
  virtualizationMetadata := none
  virtualizationServiceId := none
  hidden := false
  texts := fun _ => none
  updatedAt := 0
  lastSeenAt := 5
  lastDiscoveryId := none
  firstDiscoveryId := none }⟩

def scannedPrinter : TrackedHost :=
  { storedPrinter with base := { storedPrinter.base with name := "BRN30055C", lastSeenAt := 9 } }

/-- The event of every scan is about a name that has not changed. -/
theorem not_upsertSettles_printer : ¬UpsertSettles storedPrinter scannedPrinter := by
  intro h
  exact absurd h.silent (by decide)

end Printer

end Scanopy
