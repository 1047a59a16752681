import Scanopy.Graph.L2Builder
import Scanopy.Graph.WorkloadsBuilder

/-! What is needed for a link to be drawn: the two ports that it is between, or the port and the
device at the other end. -/

namespace Scanopy.Graph.Inventory
open List Option
variable {inv : Inventory} {env : BuildEnv} {e : Interface} {k : Uuid × Uuid} {out : Option Edge}

theorem mem_getInterfacesWithNeighbor : e ∈ inv.getInterfacesWithNeighbor ↔
    e ∈ inv.interfaces ∧ ∃ targetId, e.neighbor = some (.interface targetId) := by
  rw [getInterfacesWithNeighbor, mem_filter]
  refine and_congr_right fun _ => ?_
  cases e.neighbor with
  | none => simp
  | some neighbor => cases neighbor <;> simp

theorem mem_getInterfacesWithHostNeighbor : e ∈ inv.getInterfacesWithHostNeighbor ↔
    e ∈ inv.interfaces ∧ ∃ hostId, e.neighbor = some (.host hostId) := by
  rw [getInterfacesWithHostNeighbor, mem_filter]
  refine and_congr_right fun _ => ?_
  cases e.neighbor with
  | none => simp
  | some neighbor => cases neighbor <;> simp

theorem portLink_eq_some : inv.portLink e = some (k, out) ↔
    ∃ targetId, e.neighbor = some (.interface targetId) ∧ k = pairKey e.id targetId ∧
      out = (inv.getInterfaceById targetId).bind fun t =>
        if e.hostId = t.hostId then none
        else some {
          source := e.id
          target := t.id
          edgeType := .physicalLink e.id t.id .lldp
          label := linkLabel e.displayName t.displayName } := by
  rw [portLink]
  split
  · rename_i targetId hneighbor
    simp [hneighbor, eq_comm]
  · rename_i hneighbor
    simp only [reduceCtorEq, false_iff]
    rintro ⟨targetId, h, -⟩
    exact hneighbor targetId h

theorem addressLink_eq_some : inv.addressLink e = some (k, out) ↔
    ∃ targetId, e.neighbor = some (.interface targetId) ∧ k = pairKey e.id targetId ∧
      out = (inv.resolveIpAddressForInterface e).bind fun source =>
        (inv.getInterfaceById targetId).bind fun t =>
          (inv.resolveIpAddressForInterface t).map fun target => {
            source
            target
            edgeType := .physicalLink e.id t.id .lldp
            label := linkLabel e.displayName t.displayName
            isMultiHop := inv.edgeIsMultiHop source target } := by
  rw [addressLink]
  split
  · rename_i targetId hneighbor
    simp [hneighbor, eq_comm]
  · rename_i hneighbor
    simp only [reduceCtorEq, false_iff]
    rintro ⟨targetId, h, -⟩
    exact hneighbor targetId h

theorem boxLink_eq_some {removed : List Uuid} : inv.boxLink env removed e = some (k, out) ↔
    ∃ targetId t, e.neighbor = some (.interface targetId) ∧ inv.getInterfaceById targetId = some t ∧
      e.hostId ≠ t.hostId ∧ hostBoxId env e.hostId ∉ removed ∧ hostBoxId env t.hostId ∉ removed ∧
      k = pairKey e.id targetId ∧ out = some {
        source := hostBoxId env e.hostId
        target := hostBoxId env t.hostId
        edgeType := .physicalLink e.id t.id .lldp
        label := linkLabel e.displayName t.displayName } := by
  rw [boxLink]
  split
  · rename_i targetId hneighbor
    rw [bind_eq_some_iff]
    constructor
    · rintro ⟨t, ht, h⟩
      split at h
      · exact nomatch h
      · rename_i hhost
        split at h
        · exact nomatch h
        · rename_i hremoved
          simp only [Bool.or_eq_true, decide_eq_true_eq, not_or] at hremoved
          obtain ⟨rfl, rfl⟩ := Prod.mk.inj (some.inj h)
          exact ⟨targetId, t, hneighbor, ht, hhost, hremoved.1, hremoved.2, rfl, rfl⟩
    · rintro ⟨targetId', t, hneighbor', ht, hhost, hsource, htarget, rfl, rfl⟩
      rw [hneighbor] at hneighbor'
      obtain rfl := Neighbor.interface.inj (some.inj hneighbor')
      exact ⟨t, ht, by simp [hhost, hsource, htarget]⟩
  · rename_i hneighbor
    simp only [reduceCtorEq, false_iff]
    rintro ⟨targetId, t, h, -⟩
    exact hneighbor targetId h

theorem neighborLink_eq_some {nodeForHost : Uuid → Uuid} {pairs : List (Uuid × Uuid)} :
    inv.neighborLink nodeForHost pairs e = some (k, out) ↔
      ∃ targetHostId source target, e.neighbor = some (.host targetHostId) ∧
        e.hostId ≠ targetHostId ∧ inv.getHostById e.hostId = some source ∧
        inv.getHostById targetHostId = some target ∧ pairKey e.hostId targetHostId ∉ pairs ∧
        k = pairKey e.hostId targetHostId ∧ out = some {
          source := nodeForHost e.hostId
          target := nodeForHost targetHostId
          edgeType := .neighborLink e.hostId targetHostId (if e.hasLldpData then .lldp else .cdp)
          label := linkLabel source.name target.name } := by
  rw [neighborLink]
  split
  · rename_i targetHostId hneighbor
    split
    · rename_i hsame
      simp only [reduceCtorEq, false_iff]
      rintro ⟨targetHostId', source, target, hneighbor', hhost, -⟩
      rw [hneighbor] at hneighbor'
      obtain rfl := Neighbor.host.inj (some.inj hneighbor')
      exact hhost hsame
    · rename_i hhost
      simp only [bind_eq_some_iff]
      constructor
      · rintro ⟨source, hsource, target, htarget, h⟩
        split at h
        · exact nomatch h
        · rename_i hpairs
          obtain ⟨rfl, rfl⟩ := Prod.mk.inj (some.inj h)
          exact ⟨targetHostId, source, target, hneighbor, hhost, hsource, htarget, hpairs, rfl, rfl⟩
      · rintro ⟨targetHostId', source, target, hneighbor', -, hsource, htarget, hpairs, rfl, rfl⟩
        rw [hneighbor] at hneighbor'
        obtain rfl := Neighbor.host.inj (some.inj hneighbor')
        exact ⟨source, hsource, target, htarget, by rw [if_neg hpairs]⟩
  · rename_i hneighbor
    simp only [reduceCtorEq, false_iff]
    rintro ⟨targetHostId, source, target, h, -⟩
    exact hneighbor targetHostId h

end Scanopy.Graph.Inventory
