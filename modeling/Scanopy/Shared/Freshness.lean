import Scanopy.Services.Types

/-! How recently scans have seen an entity, against the window of its network. -/

namespace Scanopy

inductive EntityFreshness
  | new | current | stale
  deriving DecidableEq

/-- The columns that freshness is read off (`DiscoveryTracked`). -/
class Sighted (B : Type) where
  lastSeenAt : B → Timestamp
  isDiscoveryManaged : B → Bool := fun _ => true

def freshness {B : Type} [Sighted B] (b : B) (cutoff : Timestamp) : EntityFreshness :=
  if !Sighted.isDiscoveryManaged b || cutoff ≤ Sighted.lastSeenAt b then .current else .stale

theorem freshness_eq_stale_iff {B : Type} [Sighted B] {b : B} {cutoff : Timestamp} :
    freshness b cutoff = .stale ↔
      Sighted.isDiscoveryManaged b = true ∧ Sighted.lastSeenAt b < cutoff := by
  unfold freshness
  cases Sighted.isDiscoveryManaged b with
  | false => simp
  | true => simp

instance : Sighted IPAddressBase where
  lastSeenAt := (·.lastSeenAt)

instance : Sighted SubnetBase where
  lastSeenAt := (·.lastSeenAt)
  isDiscoveryManaged b := b.source.isFromDiscovery

instance : Sighted TrackedServiceBase where
  lastSeenAt := (·.lastSeenAt)
  isDiscoveryManaged b := b.source.isFromDiscovery

structure NetworkWindow where
  id : Uuid
  name : String
  staleAfterHours : Option ℤ
  deriving DecidableEq

namespace NetworkWindow

def defaultStaleAfterHours : ℤ := 24 * 28

def effectiveStaleAfterHours (n : NetworkWindow) : ℤ := n.staleAfterHours.getD defaultStaleAfterHours

def staleAfter (n : NetworkWindow) : Timestamp := hours n.effectiveStaleAfterHours

/-- Instant before which an entity that was last seen counts as stale at `reference`. -/
def staleCutoff (n : NetworkWindow) (reference : Timestamp) : Timestamp := reference - n.staleAfter

end NetworkWindow
end Scanopy
