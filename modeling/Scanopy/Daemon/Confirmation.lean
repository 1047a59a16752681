import Scanopy.Daemon.Buffer

/-! What the buffer keeps of a session. A confirmation drops the pending request of its host,
whatever was pushed to it since the last poll; a push over a confirmed entity drops the
confirmation. -/

namespace Scanopy

open List EntityBuffer

inductive HostChild
  | ipAddress (ip : IPAddress)
  | port (port : Port)
  | service (service : Service)
  | interface (interface : Interface)
  | subnet (subnet : Subnet)
  | credentialAssignment (assignment : CredentialAssignment)
  deriving DecidableEq

namespace DiscoveryHostRequest

def children (r : DiscoveryHostRequest) : List HostChild :=
  r.ipAddresses.map .ipAddress ++ r.ports.map .port ++ r.services.map .service ++
    r.interfaces.map .interface ++ r.subnets.map .subnet ++
    r.host.base.credentialAssignments.map .credentialAssignment

variable {existing host : DiscoveryHostRequest} {c : HostChild}

theorem children_mergeChildren_left
    (h : c ∈ existing.children) : c ∈ (EntityBuffer.mergeChildren existing host).children := by
  simp only [children, mergeChildren, map_append, mem_append] at h ⊢
  tauto

theorem children_mergeChildren_right
    (hsubnets : host.subnets ⊆ existing.subnets) (h : c ∈ host.children) :
    c ∈ (EntityBuffer.mergeChildren existing host).children := by
  have hmap : c ∈ host.subnets.map HostChild.subnet → c ∈ existing.subnets.map HostChild.subnet :=
    fun hc => map_subset HostChild.subnet hsubnets hc
  simp only [children, mergeChildren, map_append, mem_append] at h ⊢
  tauto

end DiscoveryHostRequest

structure Transfers where
  pushed : List DiscoveryHostRequest
  served : List DiscoveryHostRequest
  unpolled : Finset Uuid

namespace Transfers

def record (b : EntityBuffer) (op : BufferOp) (_ : EntityBuffer) (h : Transfers) : Transfers :=
  match op with
  | .pushHost host =>
    { h with pushed := host :: h.pushed, unpolled := insert host.host.id h.unpolled }
  | .getPending hostOrder subnetOrder =>
    { h with served := (b.getPending hostOrder subnetOrder).hosts ++ h.served, unpolled := ∅ }
  | _ => h

def Carries (requests : List DiscoveryHostRequest) (id : Uuid) (c : HostChild) : Prop :=
  ∃ r ∈ requests, r.host.id = id ∧ c ∈ r.children

variable {c : HostChild} {requests : List DiscoveryHostRequest} {id : Uuid}

theorem Carries.mono {requests' : List DiscoveryHostRequest}
    (h : Carries requests id c) (hsub : requests ⊆ requests') : Carries requests' id c := by
  obtain ⟨r, hr, hid, hc⟩ := h
  exact ⟨r, hsub hr, hid, hc⟩

theorem carries_cons {r : DiscoveryHostRequest} :
    Carries (r :: requests) id c ↔ r.host.id = id ∧ c ∈ r.children ∨ Carries requests id c := by
  simp only [Carries, exists_mem_cons_iff]

end Transfers

def transferSession : Lts (EntityBuffer × Transfers) BufferOp :=
  bufferSession.withHistory ⟨[], [], ∅⟩ Transfers.record

open Transfers

def ChildrenServed (t : EntityBuffer × Transfers) : Prop :=
  ∀ id pendingId actual, t.1.hosts.get id = some (.created pendingId actual) →
    ∀ c, Carries t.2.pushed id c → Carries t.2.served id c

def ConfirmsPolled (t : EntityBuffer × Transfers) : BufferOp → Prop
  | .pushHost host => ∀ existing, t.1.hosts.get host.host.id = some (.pending existing) →
      host.subnets ⊆ existing.subnets
  | .markHostCreated pendingId _ => (t.1.hosts.get pendingId).any (·.isPending) = true →
      pendingId ∉ t.2.unpolled
  | _ => True

structure ChildrenKept (t : EntityBuffer × Transfers) : Prop where
  keyed : ∀ id r, t.1.hosts.get id = some (.pending r) → r.host.id = id
  kept : ∀ id c, Carries t.2.pushed id c →
    Carries t.2.served id c ∨ ∃ r, t.1.hosts.get id = some (.pending r) ∧ c ∈ r.children
  polled : ∀ id r, t.1.hosts.get id = some (.pending r) → id ∉ t.2.unpolled →
    ∀ c ∈ r.children, Carries t.2.served id c

namespace ChildrenKept
variable {b b' : EntityBuffer} {h : Transfers}

theorem childrenServed {t : EntityBuffer × Transfers} (ht : ChildrenKept t) :
    ChildrenServed t := by
  intro id pendingId actual hcreated c hc
  obtain hserved | ⟨r, hr, -⟩ := ht.kept id c hc
  · exact hserved
  · rw [hcreated] at hr
    exact absurd hr nofun

theorem of_hosts (ht : ChildrenKept (b, h)) (hhosts : b'.hosts = b.hosts) :
    ChildrenKept (b', h) := by
  obtain ⟨hkeyed, hkept, hpolled⟩ := ht
  simp only at hkeyed hkept hpolled
  exact ⟨by simpa only [hhosts] using hkeyed, by simpa only [hhosts] using hkept,
    by simpa only [hhosts] using hpolled⟩

theorem host_id_pushed (ht : ChildrenKept (b, h)) (host : DiscoveryHostRequest) :
    (b.pushed host).host.id = host.host.id := by
  rw [EntityBuffer.pushed]
  rcases hget : b.hosts.get host.host.id with _ | existing | _
  · rfl
  · exact ht.keyed host.host.id existing hget
  · rfl

theorem pushHost (ht : ChildrenKept (b, h)) (host : DiscoveryHostRequest)
    (hok : ∀ existing, b.hosts.get host.host.id = some (.pending existing) →
      host.subnets ⊆ existing.subnets) :
    ChildrenKept (b.pushHost host,
      { h with pushed := host :: h.pushed, unpolled := insert host.host.id h.unpolled }) := by
  have hnew : ∀ c ∈ host.children, c ∈ (b.pushed host).children := by
    intro c hc
    rw [EntityBuffer.pushed]
    rcases hget : b.hosts.get host.host.id with _ | existing | _
    · exact hc
    · exact DiscoveryHostRequest.children_mergeChildren_right (hok existing hget) hc
    · exact hc
  have hold : ∀ r, b.hosts.get host.host.id = some (.pending r) →
      ∀ c ∈ r.children, c ∈ (b.pushed host).children := by
    intro r hr c hc
    rw [EntityBuffer.pushed, hr]
    exact DiscoveryHostRequest.children_mergeChildren_left hc
  refine ⟨?_, ?_, ?_⟩
  · intro id r hr
    simp only [hosts_pushHost] at hr
    split_ifs at hr with hid
    · cases hr
      rw [hid]
      exact ht.host_id_pushed host
    · exact ht.keyed id r hr
  · intro id c hc
    simp only [hosts_pushHost]
    obtain ⟨hid, hc⟩ | hc := carries_cons.mp hc
    · exact .inr ⟨b.pushed host, if_pos hid.symm, hnew c hc⟩
    · obtain hserved | ⟨r, hr, hrc⟩ := ht.kept id c hc
      · exact .inl hserved
      · by_cases hid : id = host.host.id
        · exact .inr ⟨b.pushed host, if_pos hid, hold r (hid ▸ hr) c hrc⟩
        · exact .inr ⟨r, by rw [if_neg hid]; exact hr, hrc⟩
  · intro id r hr hunpolled
    simp only [hosts_pushHost, Finset.mem_insert, not_or] at hr hunpolled
    rw [if_neg hunpolled.1] at hr
    exact ht.polled id r hr hunpolled.2

theorem markHostCreated (ht : ChildrenKept (b, h)) (pendingId : Uuid) (actual : HostResponse)
    (hok : (b.hosts.get pendingId).any (·.isPending) = true → pendingId ∉ h.unpolled) :
    ChildrenKept (b.markHostCreated pendingId actual, h) := by
  have hpending : ∀ id r, (b.markHostCreated pendingId actual).hosts.get id = some (.pending r) →
      b.hosts.get id = some (.pending r) := by
    intro id r hr
    rw [hosts_markHostCreated] at hr
    split_ifs at hr
    · exact absurd hr nofun
    · exact hr
  refine ⟨fun id r hr => ht.keyed id r (hpending id r hr), ?_,
    fun id r hr => ht.polled id r (hpending id r hr)⟩
  intro id c hc
  obtain hserved | ⟨r, hr, hrc⟩ := ht.kept id c hc
  · exact .inl hserved
  · simp only [hosts_markHostCreated]
    by_cases hmarked : id = pendingId ∧ (b.hosts.get pendingId).any (·.isPending) = true
    · -- the pending request goes, and everything in it was polled
      have hpolled : id ∉ h.unpolled := hmarked.1 ▸ hok hmarked.2
      exact .inl (ht.polled id r hr hpolled c hrc)
    · exact .inr ⟨r, by rw [if_neg hmarked]; exact hr, hrc⟩

theorem getPending (ht : ChildrenKept (b, h)) {hostOrder subnetOrder : List Uuid}
    (horder : b.hosts.Enumerates hostOrder) :
    ChildrenKept (b, { h with
      served := (b.getPending hostOrder subnetOrder).hosts ++ h.served, unpolled := ∅ }) := by
  refine ⟨ht.keyed, ?_, ?_⟩
  · intro id c hc
    obtain hserved | hpending := ht.kept id c hc
    · exact .inl (hserved.mono (subset_append_right _ _))
    · exact .inr hpending
  · intro id r hr _ c hc
    have hmem : r ∈ (b.getPending hostOrder subnetOrder).hosts :=
      (mem_hosts_getPending horder).mpr ⟨id, hr⟩
    exact ⟨r, mem_append_left _ hmem, ht.keyed id r hr, hc⟩

theorem apply {op : BufferOp} (ht : ChildrenKept (b, h)) (hop : op.possible b = true)
    (hok : ConfirmsPolled (b, h) op) :
    ChildrenKept (op.apply b, record b op (op.apply b) h) := by
  cases op with
  | pushSubnet subnet => exact ht.of_hosts rfl
  | markSubnetCreated pendingId actual =>
    exact ht.of_hosts (hosts_markSubnetCreated b pendingId actual)
  | pushHost host => exact ht.pushHost host hok
  | markHostCreated pendingId actual => exact ht.markHostCreated pendingId actual hok
  | getPending hostOrder subnetOrder => exact ht.getPending (of_decide_eq_true hop).1
  | pushScannedVlans ids => exact ht.of_hosts rfl

end ChildrenKept

/-- In every session whose steps all meet the condition, no child is confirmed away before it was
served. -/
theorem childrenServed_of_confirmsPolled {t : EntityBuffer × Transfers}
    (ht : transferSession.ReachableVia ConfirmsPolled t) : ChildrenServed t := by
  refine ChildrenKept.childrenServed (Lts.ReachableVia.invariant ?_ ?_ ht)
  · refine ⟨?_, ?_, ?_⟩
    · exact fun id r hr => absurd (show none = some _ from hr) nofun
    · rintro id c ⟨r, hr, -⟩
      exact absurd hr not_mem_nil
    · exact fun id r hr => absurd (show none = some _ from hr) nofun
  · rintro ⟨b, h⟩ op ⟨b', h'⟩ - hinv hok hstep
    obtain ⟨hstep, hhistory⟩ := Lts.step_withHistory hstep
    obtain ⟨hop, hb'⟩ := step_bufferSession hstep
    simp only at hb' hhistory
    rw [hhistory, hb']
    exact hinv.apply hop hok

structure Confirmations where
  hosts : List HostResponse
  subnets : List Subnet

def Confirmations.record (_ : EntityBuffer) (op : BufferOp) (_ : EntityBuffer)
    (c : Confirmations) : Confirmations :=
  match op with
  | .markHostCreated _ actual => { c with hosts := actual :: c.hosts }
  | .markSubnetCreated _ actual => { c with subnets := actual :: c.subnets }
  | _ => c

def confirmationSession : Lts (EntityBuffer × Confirmations) BufferOp :=
  bufferSession.withHistory ⟨[], []⟩ Confirmations.record

namespace ScannedEntityIds

structure ContainsHost (ids : ScannedEntityIds) (r : HostResponse) : Prop where
  host : r.id ∈ ids.hostIds
  ipAddresses : ∀ ip ∈ r.ipAddresses, ip.id ∈ ids.ipAddressIds
  ports : ∀ port ∈ r.ports, port.id ∈ ids.portIds
  services : ∀ service ∈ r.services, service.id ∈ ids.serviceIds
  interfaces : ∀ interface ∈ r.interfaces, interface.id ∈ ids.interfaceIds

end ScannedEntityIds

def CoversConfirmed (t : EntityBuffer × Confirmations) : Prop :=
  ∀ hostOrder subnetOrder vlanOrder, t.1.hosts.Enumerates hostOrder →
    t.1.subnets.Enumerates subnetOrder →
    (∀ r ∈ t.2.hosts,
      (t.1.getScannedIds hostOrder subnetOrder vlanOrder).ContainsHost r) ∧
    ∀ s ∈ t.2.subnets, s.id ∈ (t.1.getScannedIds hostOrder subnetOrder vlanOrder).subnetIds

def KeepsConfirmed (t : EntityBuffer × Confirmations) : BufferOp → Prop
  | .pushSubnet subnet => (t.1.subnets.get subnet.id).all (·.isPending) = true
  | .pushHost host => (t.1.hosts.get host.host.id).all (·.isPending) = true
  | .markSubnetCreated pendingId actual => ∃ e, t.1.subnets.get pendingId = some e ∧
      (e.isPending = true ∨ e.getData.id = actual.id)
  | .markHostCreated pendingId actual => ∃ e, t.1.hosts.get pendingId = some e ∧
      (e.isPending = true ∨ e.getData = EntityBuffer.confirmedRequest actual)
  | _ => True

structure ConfirmedKept (t : EntityBuffer × Confirmations) : Prop where
  hosts : ∀ r ∈ t.2.hosts, ∃ id pendingId,
    t.1.hosts.get id = some (.created pendingId (EntityBuffer.confirmedRequest r))
  subnets : ∀ s ∈ t.2.subnets, ∃ id pendingId actual,
    t.1.subnets.get id = some (.created pendingId actual) ∧ actual.id = s.id

namespace ConfirmedKept
variable {b b' : EntityBuffer} {c : Confirmations}
variable {m : HashMap Uuid (BufferedEntity T)} {actual : T} {T : Type} {id pendingId : Uuid}

theorem mem_created {order : List Uuid}
    (horder : m.Enumerates order)
    (h : m.get id = some (.created pendingId actual)) :
    actual ∈ order.filterMap fun id => (m.get id).bind (·.created?) := by
  refine mem_filterMap.mpr ⟨id, horder.mem_iff.mpr ⟨_, h⟩, ?_⟩
  rw [h]
  rfl

theorem coversConfirmed {t : EntityBuffer × Confirmations} (ht : ConfirmedKept t) :
    CoversConfirmed t := by
  intro hostOrder subnetOrder vlanOrder hhosts hsubnets
  constructor
  · intro r hr
    obtain ⟨id, pendingId, hget⟩ := ht.hosts r hr
    have hmem := mem_created hhosts hget
    refine ⟨mem_map.mpr ⟨_, hmem, rfl⟩, ?_, ?_, ?_, ?_⟩
    · exact fun ip hip => mem_flatMap.mpr ⟨_, hmem, mem_map_of_mem hip⟩
    · exact fun port hport => mem_flatMap.mpr ⟨_, hmem, mem_map_of_mem hport⟩
    · exact fun service hservice => mem_flatMap.mpr ⟨_, hmem, mem_map_of_mem hservice⟩
    · exact fun iface hiface => mem_flatMap.mpr ⟨_, hmem, mem_map_of_mem hiface⟩
  · intro s hs
    obtain ⟨id, pendingId, actual, hget, hid⟩ := ht.subnets s hs
    exact mem_map.mpr ⟨actual, mem_created hsubnets hget, hid⟩

theorem ne_of_all_pending {k : Uuid} (h : m.get id = some (.created pendingId actual))
    (hall : (m.get k).all (·.isPending) = true) : id ≠ k := by
  rintro rfl
  rw [h] at hall
  exact Bool.false_ne_true hall

theorem pushSubnet (ht : ConfirmedKept (b, c)) (subnet : Subnet)
    (hok : (b.subnets.get subnet.id).all (·.isPending) = true) :
    ConfirmedKept (b.pushSubnet subnet, c) := by
  refine ⟨ht.hosts, fun s hs => ?_⟩
  obtain ⟨id, pendingId, actual, hget, hid⟩ := ht.subnets s hs
  refine ⟨id, pendingId, actual, ?_, hid⟩
  show (b.subnets.insert subnet.id (.pending subnet)).get id = _
  rw [HashMap.get_insert, if_neg (ne_of_all_pending hget hok)]
  exact hget

theorem pushHost (ht : ConfirmedKept (b, c)) (host : DiscoveryHostRequest)
    (hok : (b.hosts.get host.host.id).all (·.isPending) = true) :
    ConfirmedKept (b.pushHost host, c) := by
  refine ⟨fun r hr => ?_, ?_⟩
  · obtain ⟨id, pendingId, hget⟩ := ht.hosts r hr
    refine ⟨id, pendingId, ?_⟩
    rw [hosts_pushHost, if_neg (ne_of_all_pending hget hok)]
    exact hget
  · rw [subnets_pushHost]
    exact ht.subnets

theorem markSubnetCreated (ht : ConfirmedKept (b, c)) {actual : Subnet}
    {e : BufferedEntity Subnet} (hentry : b.subnets.get pendingId = some e)
    (hok : e.isPending = true ∨ e.getData.id = actual.id) :
    ConfirmedKept ((b.markSubnetCreated pendingId actual).1,
      { c with subnets := actual :: c.subnets }) := by
  have hnew : (b.markSubnetCreated pendingId actual).1.subnets.get pendingId =
      some (.created pendingId actual) := by
    rw [subnets_markSubnetCreated, if_pos rfl, hentry]
    rfl
  refine ⟨?_, fun s hs => ?_⟩
  · rw [hosts_markSubnetCreated]
    exact ht.hosts
  · obtain rfl | hs := mem_cons.mp hs
    · exact ⟨pendingId, pendingId, s, hnew, rfl⟩
    obtain ⟨id, pendingId', old, hget, hid⟩ := ht.subnets s hs
    by_cases heq : id = pendingId
    · subst heq
      rw [hentry] at hget
      cases hget
      obtain hpending | hsame := hok
      · exact absurd hpending Bool.false_ne_true
      · exact ⟨id, id, actual, hnew, hsame.symm.trans hid⟩
    · refine ⟨id, pendingId', old, ?_, hid⟩
      rw [subnets_markSubnetCreated, if_neg heq]
      exact hget

theorem markHostCreated (ht : ConfirmedKept (b, c)) {actual : HostResponse}
    {e : BufferedEntity DiscoveryHostRequest} (hentry : b.hosts.get pendingId = some e)
    (hok : e.isPending = true ∨ e.getData = EntityBuffer.confirmedRequest actual) :
    ConfirmedKept (b.markHostCreated pendingId actual, { c with hosts := actual :: c.hosts }) := by
  have hkept : ∀ id k r, b.hosts.get id = some (.created k r) →
      (b.markHostCreated pendingId actual).hosts.get id = some (.created k r) := by
    intro id k r hget
    rw [hosts_markHostCreated, if_neg]
    · exact hget
    · rintro ⟨rfl, hpending⟩
      rw [hget] at hpending
      exact Bool.false_ne_true hpending
  refine ⟨fun r hr => ?_, ?_⟩
  · obtain rfl | hr := mem_cons.mp hr
    · cases e with
      | pending req =>
        refine ⟨pendingId, pendingId, ?_⟩
        rw [hosts_markHostCreated, hentry, if_pos ⟨rfl, rfl⟩]
      | created k req =>
        obtain hpending | hsame := hok
        · exact absurd hpending Bool.false_ne_true
        · cases hsame
          exact ⟨pendingId, k, hkept pendingId k _ hentry⟩
    · obtain ⟨id, k, hget⟩ := ht.hosts r hr
      exact ⟨id, k, hkept id k _ hget⟩
  · rw [subnets_markHostCreated]
    exact ht.subnets

theorem apply {op : BufferOp} (ht : ConfirmedKept (b, c)) (hok : KeepsConfirmed (b, c) op) :
    ConfirmedKept (op.apply b, Confirmations.record b op (op.apply b) c) := by
  cases op with
  | pushSubnet subnet => exact ht.pushSubnet subnet hok
  | markSubnetCreated pendingId actual =>
    obtain ⟨e, hentry, hok⟩ := hok
    exact ht.markSubnetCreated hentry hok
  | pushHost host => exact ht.pushHost host hok
  | markHostCreated pendingId actual =>
    obtain ⟨e, hentry, hok⟩ := hok
    exact ht.markHostCreated hentry hok
  | getPending hostOrder subnetOrder => exact ht
  | pushScannedVlans ids => exact ⟨ht.hosts, ht.subnets⟩

end ConfirmedKept

/-- In every session whose steps all meet the condition, the scanned ids cover everything that was
confirmed. -/
theorem coversConfirmed_of_keepsConfirmed {t : EntityBuffer × Confirmations}
    (ht : confirmationSession.ReachableVia KeepsConfirmed t) : CoversConfirmed t := by
  refine ConfirmedKept.coversConfirmed (Lts.ReachableVia.invariant ?_ ?_ ht)
  · exact ⟨fun r hr => absurd hr not_mem_nil, fun s hs => absurd hs not_mem_nil⟩
  · rintro ⟨b, c⟩ op ⟨b', c'⟩ - hinv hok hstep
    obtain ⟨hstep, hhistory⟩ := Lts.step_withHistory hstep
    obtain ⟨-, hb'⟩ := step_bufferSession hstep
    simp only at hb' hhistory
    rw [hhistory, hb']
    exact hinv.apply hok

section Runs

private def webHost (ports : List Port) (subnets : List Subnet) : DiscoveryHostRequest where
  host := ⟨1, 0, 0, none, none, ⟨"web", 9, none, none, none, false, []⟩⟩
  ipAddresses := []
  ports := ports
  services := []
  interfaces := []
  subnets := subnets
  interfacesComplete := true
  interfaceDataComplete := {}

private def httpsPort : Port := ⟨2, 0, 0, none, none, ⟨1, 9, 443, .tcp⟩⟩

private def postgresPort : Port := ⟨3, 0, 0, none, none, ⟨1, 9, 5432, .tcp⟩⟩

private def bridge : Subnet :=
  ⟨4, 0, 0, none, none, ⟨.v4 ⟨0xAC110000#32, 16, by decide, by decide⟩, 9, "bridge", none,
    .dockerBridge, none, .discovery, 0⟩⟩

private def webResponse : HostResponse where
  id := 10
  createdAt := 5
  name := "web"
  networkId := 9
  hostname := none
  description := none
  virtualizationServiceId := none
  hidden := false
  credentialAssignments := []
  ipAddresses := []
  ports := [⟨20, 5, 5, none, none, ⟨10, 9, 443, .tcp⟩⟩]
  services := []
  interfaces := []

theorem childrenServed_of_confirmsPolled_web :
    ∃ t, transferSession.run transferSession.init
        [.pushHost (webHost [httpsPort] [bridge]), .pushHost (webHost [postgresPort] []),
          .getPending [1] [], .markHostCreated 1 webResponse] = some t ∧
      (t.1.hosts.get 1).any (·.isPending) = false ∧
      ChildrenServed t := by
  obtain ⟨t, hrun⟩ : ∃ t, transferSession.run transferSession.init
      [.pushHost (webHost [httpsPort] [bridge]), .pushHost (webHost [postgresPort] []),
        .getPending [1] [], .markHostCreated 1 webResponse] = some t :=
    Option.isSome_iff_exists.mp (by decide +kernel)
  have hguarded : transferSession.Guarded ConfirmsPolled transferSession.init
      [.pushHost (webHost [httpsPort] [bridge]), .pushHost (webHost [postgresPort] []),
        .getPending [1] [], .markHostCreated 1 webResponse] := by
    refine ⟨?_, fun t₁ h₁ => ⟨fun _ _ => nil_subset _, fun t₂ h₂ => ⟨trivial, ?_⟩⟩⟩
    · exact fun existing hget => absurd (show none = some _ from hget) nofun
    · intro t₃ h₃
      refine ⟨fun _ => ?_, fun _ _ => trivial⟩
      obtain ⟨-, hhistory⟩ := Lts.step_withHistory h₃
      rw [hhistory]
      exact Finset.notMem_empty _
  have hconfirmed : (t.1.hosts.get 1).any (·.isPending) = false := by
    have hmap : (transferSession.run transferSession.init
        [.pushHost (webHost [httpsPort] [bridge]), .pushHost (webHost [postgresPort] []),
          .getPending [1] [], .markHostCreated 1 webResponse]).map
        (fun t => (t.1.hosts.get 1).any (·.isPending)) = some false := by decide +kernel
    rw [hrun] at hmap
    exact Option.some.inj hmap
  exact ⟨t, hrun, hconfirmed,
    childrenServed_of_confirmsPolled (Lts.reachableVia_of_run .init hguarded hrun)⟩

/-- A port that is pushed between the poll and its confirmation is never served, and neither is a
subnet that is pushed while its host is pending. -/
theorem not_childrenServed :
    (∃ t, transferSession.run transferSession.init
        [.pushHost (webHost [httpsPort] []), .getPending [1] [],
          .pushHost (webHost [postgresPort] []), .markHostCreated 1 webResponse] = some t ∧
      ¬ChildrenServed t) ∧
    ∃ t, transferSession.run transferSession.init
        [.pushHost (webHost [httpsPort] []), .pushHost (webHost [] [bridge]),
          .getPending [1] [], .markHostCreated 1 webResponse] = some t ∧
      ¬ChildrenServed t := by
  constructor
  · refine ⟨_, rfl, fun h => ?_⟩
    obtain ⟨r, hr, -, hc⟩ := h 1 1 (confirmedRequest webResponse) (by rfl)
      (.port postgresPort) ⟨webHost [postgresPort] [], by decide +kernel, rfl, by decide +kernel⟩
    cases mem_singleton.mp hr
    revert hc
    decide +kernel
  · refine ⟨_, rfl, fun h => ?_⟩
    obtain ⟨r, hr, -, hc⟩ := h 1 1 (confirmedRequest webResponse) (by rfl)
      (.subnet bridge) ⟨webHost [] [bridge], by decide +kernel, rfl, by decide +kernel⟩
    cases mem_singleton.mp hr
    revert hc
    decide +kernel

theorem coversConfirmed_of_keepsConfirmed_web :
    ∃ t, confirmationSession.run confirmationSession.init
        [.pushHost (webHost [httpsPort] []), .pushSubnet bridge,
          .markHostCreated 1 webResponse, .markSubnetCreated 4 bridge] = some t ∧
      t.2.hosts = [webResponse] ∧ t.2.subnets = [bridge] ∧ CoversConfirmed t := by
  obtain ⟨t, hrun⟩ : ∃ t, confirmationSession.run confirmationSession.init
      [.pushHost (webHost [httpsPort] []), .pushSubnet bridge,
        .markHostCreated 1 webResponse, .markSubnetCreated 4 bridge] = some t :=
    ⟨_, rfl⟩
  have hguarded : confirmationSession.Guarded KeepsConfirmed confirmationSession.init
      [.pushHost (webHost [httpsPort] []), .pushSubnet bridge,
        .markHostCreated 1 webResponse, .markSubnetCreated 4 bridge] := by
    refine ⟨rfl, fun t₁ h₁ => ?_⟩
    cases h₁
    refine ⟨rfl, fun t₂ h₂ => ?_⟩
    cases h₂
    refine ⟨⟨.pending (webHost [httpsPort] []), rfl, .inl rfl⟩, fun t₃ h₃ => ?_⟩
    cases h₃
    exact ⟨⟨.pending bridge, rfl, .inl rfl⟩, fun _ _ => trivial⟩
  have hcovers := coversConfirmed_of_keepsConfirmed
    (Lts.reachableVia_of_run .init hguarded hrun)
  cases hrun
  exact ⟨_, rfl, rfl, rfl, hcovers⟩

/-- A confirmed host that is pushed again is no longer among the scanned ids. -/
theorem not_coversConfirmed :
    ∃ t, confirmationSession.run confirmationSession.init
        [.pushHost (webHost [httpsPort] []), .markHostCreated 1 webResponse,
          .pushHost (webHost [postgresPort] [])] = some t ∧
      ¬CoversConfirmed t := by
  refine ⟨_, rfl, fun h => ?_⟩
  have hhost := ((h [1] [] [] (by decide +kernel) (by decide +kernel)).1 webResponse
    (mem_singleton.mpr rfl)).host
  revert hhost
  decide +kernel

end Runs

end Scanopy
