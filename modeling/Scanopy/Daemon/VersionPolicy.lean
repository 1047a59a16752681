import Mathlib.Data.List.MinMax
import Mathlib.Data.Prod.Lex
import Scanopy.Discovery.Types

/-! The versions of daemons that a server supports. Cutovers are announced with a date; the gate
takes the highest floor in force, within two bounds of its own. -/

namespace Scanopy

open List

structure VersionText (V : Type) where
  new : ℕ → ℕ → ℕ → V
  display : V → String
  /-- The date alone, as `%Y-%m-%d`. -/
  formatDate : Timestamp → String

/-- An announced cutover. Daemons below the floor are rejected from the date on. -/
structure ScheduledFloor (V : Type) where
  floor : V
  effectiveOn : Timestamp

inductive VersionHealthStatus
  | current | outdated | deprecated | unsupported | unknown
  deriving DecidableEq

inductive DeprecationSeverity
  | info | warning | critical | unknown
  deriving DecidableEq

structure DeprecationWarning where
  message : String
  sunsetDate : Option String
  severity : DeprecationSeverity
  deriving DecidableEq

structure DaemonVersionStatus where
  version : Option String
  status : VersionHealthStatus
  warnings : List DeprecationWarning
  sunsetDate : Option String
  supportsUnifiedDiscovery : Bool
  hasCorrectDockerVolumeMount : Bool
  supportsTargetedRescan : Bool

structure DaemonVersionPolicy (V : Type) where
  minimumSupported : V
  recommended : V
  latest : V
  now : Timestamp
  scheduledSunsets : List (ScheduledFloor V)

structure DaemonVersionTooOld where
  daemonVersion : String
  serverVersion : String
  deriving DecidableEq

section Policy
variable {V : Type} [LinearOrder V] (text : VersionText V)

-- the order of the integers that computes
local instance : PartialOrder Timestamp := Int.instLinearOrder.toPartialOrder

def baselineFloor : V := text.new 0 12 0

def ownVersion : V := text.new 0 17 11

def floorFrom (sunsets : List (ScheduledFloor V)) (now : Timestamp) : V :=
  min (((sunsets.filter (·.effectiveOn ≤ now)).map (·.floor)).foldl max (baselineFloor text))
    (ownVersion text)

def isBelow (v : Option V) (floor : V) : Bool := v.all fun v => v < floor

/-- The soonest of the cutovers that cover a version, and of these the one with the lowest floor. -/
def applicableSunsetIn (sunsets : List (ScheduledFloor V)) (v : Option V) : Option (V × Timestamp) :=
  ((sunsets.map fun s => (s.floor, s.effectiveOn)).filter fun c => isBelow v c.1).argmin fun c =>
    toLex (c.2, c.1)

def supportsFrom (minimum : V) (v : Option V) : Bool := v.any fun v => minimum ≤ v

def supportsUnifiedDiscovery (v : Option V) : Bool := supportsFrom (text.new 0 15 0) v
def hasCorrectDockerVolumeMount (v : Option V) : Bool := supportsFrom (text.new 0 16 1) v
def supportsTargetedRescan (v : Option V) : Bool := supportsFrom (text.new 0 17 7) v

namespace DaemonVersionPolicy

def atWithSunsets (now : Timestamp) (sunsets : List (ScheduledFloor V)) : DaemonVersionPolicy V where
  minimumSupported := floorFrom text sunsets now
  recommended := ownVersion text
  latest := ownVersion text
  now := now
  scheduledSunsets := sunsets

variable (policy : DaemonVersionPolicy V)

def lifecycle (v : Option V) : VersionHealthStatus × List DeprecationWarning × Option String :=
  let label := match v with
    | some v => s!"Daemon {text.display v}"
    | none => "This daemon (no reported version)"
  let recommended := text.display policy.recommended
  match applicableSunsetIn policy.scheduledSunsets v with
  | some (_, effectiveOn) =>
    let sunset := text.formatDate effectiveOn
    let (status, message) :=
      if effectiveOn ≤ policy.now then
        (.unsupported, s!"{label} is no longer supported (support ended {sunset}). " ++
          s!"Update to {recommended} or later to reconnect.")
      else
        (.deprecated, s!"{label} is deprecated and support ends {sunset}. " ++
          s!"Update to {recommended} or later before then to avoid interruption.")
    (status, [⟨message, some sunset, .critical⟩], some sunset)
  | none =>
    match v with
    | none => (.unknown,
        [⟨s!"Daemon version unknown. Update to {recommended} or later.", none, .warning⟩], none)
    | some v =>
      if v < policy.minimumSupported then
        (.unsupported, [⟨s!"Daemon {text.display v} is no longer supported. " ++
          s!"Update to {recommended} or later to reconnect.", none, .critical⟩], none)
      else if v < policy.recommended then
        (.outdated, [⟨s!"Daemon {text.display v} is outdated. " ++
          s!"Update to {recommended} for the latest features.", none, .warning⟩], none)
      else (.current, [], none)

def evaluate (v : Option V) : DaemonVersionStatus :=
  let (status, warnings, sunsetDate) := policy.lifecycle text v
  { version := v.map text.display
    status
    warnings
    sunsetDate
    supportsUnifiedDiscovery := Scanopy.supportsUnifiedDiscovery text v
    hasCorrectDockerVolumeMount := Scanopy.hasCorrectDockerVolumeMount text v
    supportsTargetedRescan := Scanopy.supportsTargetedRescan text v }

def tooOld (v : V) : DaemonVersionTooOld :=
  ⟨text.display v, text.display policy.minimumSupported⟩

/-- The gate of `process_startup`. -/
def processStartup (v : V) : Except DaemonVersionTooOld Unit :=
  if v < policy.minimumSupported then .error (policy.tooOld text v) else .ok ()

/-- The gate of `process_registration`. A daemon without a version passes. -/
def processRegistration (v : Option V) : Except DaemonVersionTooOld Unit :=
  match v with
  | none => .ok ()
  | some v => if v < policy.minimumSupported then .error (policy.tooOld text v) else .ok ()

def Rejects (v : V) : Prop :=
  policy.processStartup text v = .error (policy.tooOld text v) ∧
    policy.processRegistration text (some v) = .error (policy.tooOld text v)

def Accepts (v : V) : Prop :=
  policy.processStartup text v = .ok () ∧ policy.processRegistration text (some v) = .ok ()

end DaemonVersionPolicy

variable (sunsets : List (ScheduledFloor V)) (now : Timestamp) (v : V)

structure TellsGate : Prop where
  unsupported : ((DaemonVersionPolicy.atWithSunsets text now sunsets).evaluate text (some v)).status =
    .unsupported ↔ (DaemonVersionPolicy.atWithSunsets text now sunsets).Rejects text v
  deprecated : ((DaemonVersionPolicy.atWithSunsets text now sunsets).evaluate text (some v)).status =
    .deprecated → ∀ date,
      ((DaemonVersionPolicy.atWithSunsets text now sunsets).evaluate text (some v)).sunsetDate =
        some date → ∃ s ∈ sunsets, v < s.floor ∧ text.formatDate s.effectiveOn = date ∧
          ∀ t, now ≤ t → t < s.effectiveOn →
            (DaemonVersionPolicy.atWithSunsets text t sunsets).Accepts text v

def InForce (sunsets : List (ScheduledFloor V)) (now : Timestamp) (v : V) : Prop :=
  ∃ s ∈ sunsets, s.effectiveOn ≤ now ∧ v < s.floor

def Covered (sunsets : List (ScheduledFloor V)) (v : V) : Prop := ∃ s ∈ sunsets, v < s.floor

structure WithinBounds : Prop where
  own : ownVersion text ≤ v → ¬InForce sunsets now v
  baseline : v < ownVersion text → v < baselineFloor text → Covered sunsets v →
    InForce sunsets now v

end Policy

section Lemmas
variable {V : Type} [LinearOrder V] {text : VersionText V} {sunsets : List (ScheduledFloor V)}
  {now : Timestamp} {v : V}
variable {effectiveOn : Timestamp} {floor : V}

theorem lt_foldl_max {floors : List V} {base : V} :
    v < floors.foldl max base ↔ v < base ∨ ∃ floor ∈ floors, v < floor := by
  induction floors generalizing base with
  | nil => simp
  | cons floor floors ih =>
    rw [foldl_cons, ih, lt_max_iff, exists_mem_cons_iff, or_assoc]

theorem lt_floorFrom : v < floorFrom text sunsets now ↔
    v < ownVersion text ∧ (v < baselineFloor text ∨ InForce sunsets now v) := by
  unfold floorFrom InForce
  rw [lt_min_iff, lt_foldl_max, and_comm]
  refine and_congr_right fun _ => or_congr_right ?_
  constructor
  · rintro ⟨floor, hfloor, hlt⟩
    obtain ⟨s, hs, rfl⟩ := mem_map.mp hfloor
    obtain ⟨hs, hforce⟩ := mem_filter.mp hs
    exact ⟨s, hs, of_decide_eq_true hforce, hlt⟩
  · rintro ⟨s, hs, hforce, hlt⟩
    have hmem : s ∈ sunsets.filter (·.effectiveOn ≤ now) :=
      mem_filter.mpr ⟨hs, decide_eq_true hforce⟩
    exact ⟨s.floor, mem_map_of_mem hmem, hlt⟩

theorem applicableSunsetIn_eq_none : applicableSunsetIn sunsets (some v) = none ↔
    ¬Covered sunsets v := by
  unfold applicableSunsetIn Covered isBelow
  rw [argmin_eq_none, filter_eq_nil_iff]
  simp

theorem of_applicableSunsetIn
    (h : applicableSunsetIn sunsets (some v) = some (floor, effectiveOn)) :
    (∃ s ∈ sunsets, v < s.floor ∧ s.effectiveOn = effectiveOn) ∧
      ∀ s ∈ sunsets, v < s.floor → effectiveOn ≤ s.effectiveOn := by
  unfold applicableSunsetIn isBelow at h
  constructor
  · obtain ⟨hmem, hbelow⟩ := mem_filter.mp (argmin_mem h)
    obtain ⟨s, hs, heq⟩ := mem_map.mp hmem
    cases heq
    exact ⟨s, hs, of_decide_eq_true hbelow, rfl⟩
  · intro s hs hbelow
    have hmem : (s.floor, s.effectiveOn) ∈ (sunsets.map fun s => (s.floor, s.effectiveOn)).filter
        fun c => (some v).all fun v => v < c.1 :=
      mem_filter.mpr ⟨mem_map_of_mem hs, decide_eq_true hbelow⟩
    have hle := le_of_mem_argmin hmem h
    rw [Prod.Lex.le_iff] at hle
    rcases hle with hlt | ⟨heq, -⟩
    · exact hlt.le
    · exact heq.le

theorem rejects_iff :
    (DaemonVersionPolicy.atWithSunsets text now sunsets).Rejects text v ↔
      v < floorFrom text sunsets now := by
  by_cases h : v < floorFrom text sunsets now
  · exact iff_of_true ⟨if_pos h, if_pos h⟩ h
  · refine iff_of_false (fun hreject => ?_) h
    have hok : (DaemonVersionPolicy.atWithSunsets text now sunsets).processStartup text v = .ok () :=
      if_neg h
    exact nomatch hok.symm.trans hreject.1

theorem accepts_of_not_lt (h : ¬v < floorFrom text sunsets now) :
    (DaemonVersionPolicy.atWithSunsets text now sunsets).Accepts text v :=
  ⟨if_neg h, if_neg h⟩

theorem status_of_covered
    (h : applicableSunsetIn sunsets (some v) = some (floor, effectiveOn)) :
    ((DaemonVersionPolicy.atWithSunsets text now sunsets).evaluate text (some v)).status =
        (if effectiveOn ≤ now then .unsupported else .deprecated) ∧
      ((DaemonVersionPolicy.atWithSunsets text now sunsets).evaluate text (some v)).sunsetDate =
        some (text.formatDate effectiveOn) := by
  unfold DaemonVersionPolicy.evaluate DaemonVersionPolicy.lifecycle
  dsimp only [DaemonVersionPolicy.atWithSunsets]
  rw [h]
  by_cases hforce : effectiveOn ≤ now
  · simp [hforce]
  · simp [hforce]

theorem status_of_not_covered (h : ¬Covered sunsets v) :
    ((DaemonVersionPolicy.atWithSunsets text now sunsets).evaluate text (some v)).status =
      if v < floorFrom text sunsets now then .unsupported
      else if v < ownVersion text then .outdated else .current := by
  unfold DaemonVersionPolicy.evaluate DaemonVersionPolicy.lifecycle
  dsimp only [DaemonVersionPolicy.atWithSunsets]
  rw [applicableSunsetIn_eq_none.mpr h]
  by_cases hfloor : v < floorFrom text sunsets now
  · simp [hfloor]
  · by_cases hown : v < ownVersion text
    · simp [hfloor, hown]
    · simp [hfloor, hown]

theorem unsupported_iff :
    ((DaemonVersionPolicy.atWithSunsets text now sunsets).evaluate text (some v)).status =
        .unsupported ↔
      InForce sunsets now v ∨ ¬Covered sunsets v ∧ v < floorFrom text sunsets now := by
  cases hface : applicableSunsetIn sunsets (some v) with
  | none =>
    have hcovered := applicableSunsetIn_eq_none.mp hface
    have hforce : ¬InForce sunsets now v := fun ⟨s, hs, _, hlt⟩ => hcovered ⟨s, hs, hlt⟩
    rw [status_of_not_covered hcovered, or_iff_right hforce, and_iff_right hcovered]
    split_ifs with hlt hown
    · exact iff_of_true rfl hlt
    · exact iff_of_false nofun hlt
    · exact iff_of_false nofun hlt
  | some face =>
    obtain ⟨floor, effectiveOn⟩ := face
    obtain ⟨⟨s, hs, hlt, rfl⟩, hsoonest⟩ := of_applicableSunsetIn hface
    have hcovered : Covered sunsets v := ⟨s, hs, hlt⟩
    rw [(status_of_covered hface).1, or_iff_left fun h => h.1 hcovered]
    split_ifs with hforce
    · exact iff_of_true rfl ⟨s, hs, hforce, hlt⟩
    · refine iff_of_false nofun fun ⟨t, ht, htforce, htlt⟩ => ?_
      exact hforce ((hsoonest t ht htlt).trans htforce)

theorem accepts_until (hbounds : v < ownVersion text → ¬v < baselineFloor text) {t : Timestamp}
    (hforce : ¬InForce sunsets t v) :
    (DaemonVersionPolicy.atWithSunsets text t sunsets).Accepts text v := by
  refine accepts_of_not_lt fun hlt => ?_
  obtain ⟨hown, hbase | hin⟩ := lt_floorFrom.mp hlt
  · exact hbounds hown hbase
  · exact hforce hin

theorem agree_iff : (((DaemonVersionPolicy.atWithSunsets text now sunsets).evaluate text
    (some v)).status = .unsupported ↔
      (DaemonVersionPolicy.atWithSunsets text now sunsets).Rejects text v) ↔
    WithinBounds text sunsets now v := by
  rw [unsupported_iff, rejects_iff, lt_floorFrom]
  constructor
  · intro h
    refine ⟨fun hown hforce => ?_, fun hown hbase hcover => ?_⟩
    · exact absurd (h.mp (.inl hforce)).1 (not_lt.mpr hown)
    · rcases h.mpr ⟨hown, .inl hbase⟩ with hforce | ⟨hnot, -⟩
      · exact hforce
      · exact absurd hcover hnot
  · intro h
    constructor
    · rintro (hforce | ⟨-, hlt⟩)
      · exact ⟨not_le.mp fun hown => h.own hown hforce, .inr hforce⟩
      · exact hlt
    · rintro ⟨hown, hbase | hforce⟩
      · by_cases hcover : Covered sunsets v
        · exact .inl (h.baseline hown hbase hcover)
        · exact .inr ⟨hcover, hown, .inl hbase⟩
      · exact .inl hforce

/-- The operator is told what the gate does if the bounds of the gate make no difference. -/
theorem tellsGate_iff (text : VersionText V) (sunsets : List (ScheduledFloor V)) (now : Timestamp)
    (v : V) : TellsGate text sunsets now v ↔ WithinBounds text sunsets now v := by
  constructor
  · exact fun h => agree_iff.mp h.unsupported
  · intro h
    refine ⟨agree_iff.mpr h, fun hstatus date hdate => ?_⟩
    cases hface : applicableSunsetIn sunsets (some v) with
    | none =>
      rw [status_of_not_covered (applicableSunsetIn_eq_none.mp hface)] at hstatus
      split_ifs at hstatus
    | some face =>
      obtain ⟨floor, effectiveOn⟩ := face
      obtain ⟨⟨s, hs, hlt, rfl⟩, hsoonest⟩ := of_applicableSunsetIn hface
      have hpending : ¬s.effectiveOn ≤ now := by
        intro hforce
        rw [(status_of_covered hface).1, if_pos hforce] at hstatus
        cases hstatus
      rw [(status_of_covered hface).2] at hdate
      refine ⟨s, hs, hlt, Option.some.inj hdate, fun t hnow ht => accepts_until ?_ ?_⟩
      · intro hown hbase
        obtain ⟨s', hs', hforce, hlt'⟩ := h.baseline hown hbase ⟨s, hs, hlt⟩
        exact hpending ((hsoonest s' hs' hlt').trans hforce)
      · rintro ⟨s', hs', hforce, hlt'⟩
        exact absurd ((hsoonest s' hs' hlt').trans hforce) (not_le.mpr ht)

section Announced

def release : VersionText (ℕ ×ₗ ℕ ×ₗ ℕ) where
  new major minor patch := toLex (major, toLex (minor, patch))
  display v := s!"{(ofLex v).1}.{(ofLex (ofLex v).2).1}.{(ofLex (ofLex v).2).2}"
  formatDate _ := "2026-10-01"

def october : List (ScheduledFloor (ℕ ×ₗ ℕ ×ₗ ℕ)) :=
  [⟨release.new 0 17 5, 1790812800000000000⟩]

/-- In July a daemon below the baseline is called deprecated, and is rejected. -/
theorem not_tellsGate : ¬∀ (sunsets : List (ScheduledFloor (ℕ ×ₗ ℕ ×ₗ ℕ))) (now : Timestamp)
    (v : ℕ ×ₗ ℕ ×ₗ ℕ), TellsGate release sunsets now v := by
  intro h
  have hbounds := agree_iff.mp (h october 1785110400000000000 (release.new 0 11 0)).unsupported
  obtain ⟨s, hs, hforce, -⟩ := hbounds.baseline (by decide) (by decide)
    ⟨_, mem_singleton_self _, by decide⟩
  rw [mem_singleton.mp hs] at hforce
  exact absurd hforce (by decide)

end Announced

end Lemmas
end Scanopy
