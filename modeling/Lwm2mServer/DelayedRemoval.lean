import Lwm2mServer.DeviceSteps

/-! The removal `handle_registration` schedules for a device it did not
include. The spawned task remembers an address and acts on whatever is indexed
there ten seconds later. `Aimed` says that every outstanding removal still
points at the endpoint it was decided for; it is carried through every step
that leaves the targets alone. -/
namespace Lwm2mServer.DelayedRemoval
open Library DeviceRegistry RegistryIndexes DeviceSteps

/-- A registration that was found not to be included and whose removal the
receive loop has not scheduled yet. -/
def decided : Recv → Option (String × SocketAddr)
  | .dispatchReset endpoint addr | .scheduleRemoval endpoint addr => some (endpoint, addr)
  | _ => none

/-- The endpoints whose removal is decided and not done, each with the address
it will be looked for at. -/
def outstanding (s : Server) : List (String × SocketAddr) :=
  (decided s.recv).toList ++
    (s.removals.all.filter (!·.done)).map fun task => (task.endpoint, task.addr)

/-- Whatever is indexed at an address is a device of the endpoint. -/
def OwnedBy (r : DeviceRegistry) (target : String × SocketAddr) : Prop :=
  ∀ id dev, r.byAddr.lookup target.2 = some id → r.byId.lookup id = some dev →
    dev.endpoint = target.1

/-- The condition on a registration: nobody else registers from the address of
an outstanding removal, and its own endpoint does so only while it is still
not included; a device that registers again from the address it is stored with
is the one indexed there. -/
def RegistersClear (s : Server) (registered : String × SocketAddr) : Prop :=
  (∀ target ∈ outstanding s, target.2 = registered.2 →
    target.1 = registered.1 ∧ registered.1 ∉ s.boot.included) ∧
  ∀ id ∈ s.devices.byEndpoint.lookup registered.1, ∀ dev ∈ s.devices.byId.lookup id,
    dev.addr = registered.2 → ∀ other ∈ s.devices.byAddr.lookup registered.2, other = id

/-- The condition on a step. An endpoint with an outstanding removal is marked
as included only while nothing is registered at the address of the removal. -/
def LeavesTargets (s : Server) (action : Action) : Prop :=
  NewIdFree s action ∧
  (∀ registered ∈ registering s action, RegistersClear s registered) ∧
  ∀ endpoint ∈ marking s action, ∀ target ∈ outstanding s, target.1 = endpoint →
    s.devices.byAddr.lookup target.2 = none

-- The ids are a finite type: the instance that tries them all must not be found.
instance (s : Server) (registered : String × SocketAddr) : Decidable (RegistersClear s registered) :=
  have (id : UInt32) (addr : SocketAddr) :
      Decidable (∀ other ∈ s.devices.byAddr.lookup addr, other = id) :=
    Option.decidableForallMem _
  have : Decidable (∀ id ∈ s.devices.byEndpoint.lookup registered.1,
      ∀ dev ∈ s.devices.byId.lookup id, dev.addr = registered.2 →
        ∀ other ∈ s.devices.byAddr.lookup registered.2, other = id) :=
    Option.decidableForallMem _
  inferInstanceAs (Decidable (_ ∧ _))

instance (s : Server) (action : Action) : Decidable (LeavesTargets s action) :=
  inferInstanceAs (Decidable (_ ∧ _ ∧ _))

/-- Every outstanding removal points at its own endpoint, and at nothing once
that endpoint is included. -/
structure Aimed (s : Server) : Prop where
  sound : IndexesSound s.devices
  owned : ∀ at_ ∈ outstanding s, OwnedBy s.devices at_
  absent : ∀ at_ ∈ outstanding s, at_.1 ∈ s.boot.included → s.devices.byAddr.lookup at_.2 = none
  current : ∀ at_ ∈ target s.recv, OwnedBy s.devices at_

variable {env : Env} {s next : Server} {action : Action} {r r' : DeviceRegistry}
  {at_ : String × SocketAddr}

/-! ## What the registry does to an owned address -/

theorem owned_quiet (owned : OwnedBy r at_) (quiet : Quiet r r') : OwnedBy r' at_ := by
  induction quiet with
  | update kept =>
    intro id dev index held
    obtain ⟨before, stored, same⟩ := kept.backward held
    rw [kept.addrs] at index
    exact same.2.1.trans (owned id before index stored)
  | @remove r id gone stored =>
    intro other dev index held
    simp only [removeDevice, Table.lookup_erase_if] at index held
    split at index
    · cases index
    · split at held
      · cases held
      · exact owned other dev index held
  | trans _ _ first second => exact second (first owned)

/-- Nothing gets indexed but by a registration. -/
theorem unindexed_quiet {addr : SocketAddr} (absent : r.byAddr.lookup addr = none)
    (quiet : Quiet r r') : r'.byAddr.lookup addr = none := by
  induction quiet with
  | update kept => rw [kept.addrs, absent]
  | remove stored =>
    simp only [removeDevice, Table.lookup_erase_if, absent, ite_self]
  | trans _ _ first second => exact second (first absent)

section Registration
variable {now : Instant} {endpoint : String} {addr : SocketAddr} {reg : Registration} {id : UInt32}

/-- A registration leaves an owned address owned if it is the owner's, or from
elsewhere. -/
theorem owned_registered (sound : IndexesSound r)
    (registered : Registered r now endpoint addr reg (id, r'))
    (free : r.byEndpoint.lookup endpoint = none → r.byId.lookup r.nextId = none)
    (owned : OwnedBy r at_) (clear : at_.2 = addr → at_.1 = endpoint) : OwnedBy r' at_ := by
  intro other dev index held
  cases registered with
  | @refreshed _ before known stored own here =>
    simp only [putDevice, Table.lookup_insert_if] at index held
    split at held
    · rename_i same
      cases held
      rw [same] at index
      exact owned id before index stored
    · exact owned other dev index held
  | @moved _ before known stored own elsewhere =>
    simp only [Table.lookup_insert_if, Table.lookup_erase_if] at index held
    split at held
    · cases held
      by_cases here : at_.2 = addr
      · exact own.trans (clear here).symm
      · rename_i same
        rw [if_neg here] at index
        split at index
        · cases index
        · rw [same] at index
          exact owned id before index stored
    · rename_i apart
      by_cases here : at_.2 = addr
      · rw [if_pos here] at index
        exact absurd (Option.some.inj index).symm apart
      · rw [if_neg here] at index
        split at index
        · cases index
        · exact owned other dev index held
  | added unknown =>
    simp only [Table.lookup_insert_if] at index held
    by_cases here : at_.2 = addr
    · rw [if_pos here] at index
      rw [if_pos (Option.some.inj index).symm] at held
      cases held
      exact (clear here).symm
    · rw [if_neg here] at index
      obtain ⟨stored, found, -⟩ := sound.byAddr at_.2 other index
      have old : other ≠ r.nextId := by
        intro same
        rw [same, free unknown] at found
        cases found
      rw [if_neg old] at held
      exact owned other dev index held

/-- The registered device owns its address, unless it registered again from
the address it had and another device is indexed there. -/
theorem owned_by_registered (registered : Registered r now endpoint addr reg (id, r'))
    (clear : ∀ id ∈ r.byEndpoint.lookup endpoint, ∀ dev ∈ r.byId.lookup id, dev.addr = addr →
      ∀ other ∈ r.byAddr.lookup addr, other = id) : OwnedBy r' (endpoint, addr) := by
  intro other dev index held
  cases registered with
  | @refreshed _ before known stored own here =>
    have same : other = id := clear id known before stored here other index
    simp only [putDevice, Table.lookup_insert_if, same, if_true] at held
    cases held
    exact own
  | @moved _ before known stored own elsewhere =>
    simp only [Table.lookup_insert_if, if_true] at index held
    rw [if_pos (Option.some.inj index).symm] at held
    cases held
    exact own
  | added unknown =>
    simp only [Table.lookup_insert_if, if_true] at index held
    rw [if_pos (Option.some.inj index).symm] at held
    cases held
    rfl

theorem unindexed_registered {probe : SocketAddr}
    (registered : Registered r now endpoint addr reg (id, r'))
    (absent : r.byAddr.lookup probe = none) (elsewhere : probe ≠ addr) :
    r'.byAddr.lookup probe = none := by
  cases registered with
  | refreshed => exact absent
  | moved =>
    simp only [Table.lookup_insert_if, Table.lookup_erase_if, elsewhere, if_false, absent, ite_self]
  | added => simp only [Table.lookup_insert_if, elsewhere, if_false, absent]

end Registration

/-! ## One step -/

theorem mem_outstanding :
    at_ ∈ outstanding s ↔ decided s.recv = some at_ ∨
      ∃ i task, s.removals.get? i = some task ∧ task.done = false ∧
        at_ = (task.endpoint, task.addr) := by
  simp only [outstanding, List.mem_append, Option.mem_toList, List.mem_map, List.mem_filter]
  constructor
  · rintro (now | ⟨task, ⟨member, pending⟩, rfl⟩)
    · exact Or.inl now
    · obtain ⟨i, held⟩ := List.mem_iff_getElem?.mp member
      exact Or.inr ⟨i, task, held, by simpa using pending, rfl⟩
  · rintro (now | ⟨i, task, held, pending, rfl⟩)
    · exact Or.inl now
    · refine Or.inr ⟨task, ⟨List.mem_iff_getElem?.mpr ⟨i, held⟩, ?_⟩, rfl⟩
      simpa using pending

theorem decided_target {recv : Recv} (now : decided recv = some at_) : target recv = some at_ := by
  cases recv <;> simp_all [decided, target]

/-- A step that registers nobody and marks nobody. -/
theorem Aimed.keep (aimed : Aimed s) (quiet : Quiet s.devices next.devices)
    (fewer : ∀ at_ ∈ outstanding next, at_ ∈ outstanding s ∨
      (at_ ∈ target s.recv ∧ at_.1 ∉ s.boot.included))
    (included : next.boot.included ⊆ s.boot.included)
    (current : ∀ at_ ∈ target next.recv, at_ ∈ target s.recv) : Aimed next where
  sound := indexes_quiet aimed.sound quiet
  owned at_ member := by
    refine owned_quiet ?_ quiet
    rcases fewer at_ member with old | ⟨fresh, -⟩
    · exact aimed.owned at_ old
    · exact aimed.current at_ fresh
  absent at_ member marked := by
    refine unindexed_quiet ?_ quiet
    rcases fewer at_ member with old | ⟨-, unmarked⟩
    · exact aimed.absent at_ old (included marked)
    · exact absurd (included marked) unmarked
  current at_ member := owned_quiet (aimed.current at_ (current at_ member)) quiet

/-- The removals stay as they are and the receive loop decides on nobody new. -/
theorem outstanding_same (member : at_ ∈ outstanding next) (removals : next.removals = s.removals)
    (recv : ∀ at_, decided next.recv = some at_ → decided s.recv = some at_) :
    at_ ∈ outstanding s := by
  rcases mem_outstanding.mp member with now | ⟨i, task, held, pending, rfl⟩
  · exact mem_outstanding.mpr (Or.inl (recv _ now))
  · rw [removals] at held
    exact mem_outstanding.mpr (Or.inr ⟨i, task, held, pending, rfl⟩)

theorem aimed_step (aimed : Aimed s) (leaves : LeavesTargets s action)
    (ran : s.step env action = some next) : Aimed next := by
  obtain ⟨free, clear, unmarked⟩ := leaves
  have sound := indexes_step aimed.sound free ran
  cases device_move aimed.sound.resolve ran with
  | @register endpoint reg packet addr devices choice response id position registered =>
    have registers : registering s (.recv choice) = some (endpoint, addr) := by
      rw [registering, position]
    obtain ⟨others, own⟩ := clear _ registers
    have same {at_} (member : at_ ∈ outstanding { s with
        devices, recv := .respond response addr (.decideInclusion endpoint) }) :
        at_ ∈ outstanding s := outstanding_same member rfl (by simp [decided])
    constructor
    · exact sound
    · intro at_ member
      exact owned_registered aimed.sound registered (free _ registers)
        (aimed.owned at_ (same member)) fun here => (others at_ (same member) here).1
    · intro at_ member marked
      refine unindexed_registered registered (aimed.absent at_ (same member) marked) fun here => ?_
      obtain ⟨mine, unmarked⟩ := others at_ (same member) here
      exact unmarked (mine ▸ marked)
    · intro at_ member
      cases member
      exact owned_by_registered registered own
  | @decide response addr endpoint choice position =>
    refine aimed.keep (.refl _) (fun at_ member => Or.inl ?_) (Finset.Subset.refl _) ?_
    · exact outstanding_same member rfl (by simp [decided])
    · intro at_ member
      rwa [position]
  | @refuse endpoint addr choice log position absent =>
    refine aimed.keep (.refl _) (fun at_ member => ?_) (Finset.Subset.refl _) ?_
    · rcases mem_outstanding.mp member with now | old
      · cases now
        exact Or.inr ⟨by rw [position]; rfl, absent⟩
      · exact Or.inl (mem_outstanding.mpr (Or.inr old))
    · intro at_ member
      rwa [position]
  | @reset endpoint addr choice log position =>
    refine aimed.keep (.refl _) (fun at_ member => Or.inl ?_) (Finset.Subset.refl _) ?_
    · exact outstanding_same member rfl (by simp [decided, position])
    · intro at_ member
      rwa [position]
  | @schedule endpoint addr choice log position =>
    refine aimed.keep (.refl _) (fun at_ member => Or.inl ?_) (Finset.Subset.refl _)
      fun at_ now => by cases now
    rcases mem_outstanding.mp member with now | ⟨i, task, held, pending, rfl⟩
    · cases now
    · rw [Tasks.get?_spawn] at held
      split at held
      · cases held
        exact mem_outstanding.mpr (Or.inl (by rw [position]; rfl))
      · exact mem_outstanding.mpr (Or.inr ⟨i, task, held, pending, rfl⟩)
  | @remove i task replies held pending due =>
    refine aimed.keep (quiet_removeByAddr aimed.sound.resolve _) (fun at_ member => Or.inl ?_)
      (Finset.Subset.refl _) fun _ => id
    rcases mem_outstanding.mp member with now | ⟨j, other, kept, waits, rfl⟩
    · exact mem_outstanding.mpr (Or.inl now)
    · rw [Tasks.get?_update _ held] at kept
      split at kept
      · cases kept
        cases waits
      · exact mem_outstanding.mpr (Or.inr ⟨j, other, kept, waits, rfl⟩)
  | @mark i task choice log held pc =>
    have marks : marking s (.phase i choice) = some task.endpoint := by
      simp [marking, held, pc]
    refine ⟨aimed.sound, aimed.owned, fun at_ member marked => ?_, aimed.current⟩
    rcases Finset.mem_insert.mp marked with new | old
    · exact unmarked _ marks at_ member new
    · exact aimed.absent at_ member old
  | deregister held pc =>
    exact aimed.keep (quiet_removeByAddr aimed.sound.resolve _) (fun _ => Or.inl)
      (Finset.Subset.refl _) fun _ => id
  | unmark held pc =>
    exact aimed.keep (.refl _) (fun _ => Or.inl) (Finset.erase_subset ..) fun _ => id
  | other _ quiet neutral included =>
    refine aimed.keep quiet (fun at_ member => Or.inl ?_) (included ▸ Finset.Subset.refl _) ?_
    · refine outstanding_same member rfl fun at_ now => ?_
      rcases neutral with same | none
      · exact same ▸ now
      · rw [decided_target now] at none
        cases none
    · intro at_ member
      rcases neutral with same | none
      · exact same ▸ member
      · rw [none] at member
        cases member
  | _ => exact aimed.keep (.refl _) (fun _ => Or.inl) (Finset.Subset.refl _) fun _ => id

theorem reached_aimed (reached : (soundServer env).Reaches LeavesTargets s) : Aimed s := by
  refine reached.invariant Aimed (fun s initial => ?_) ?_
  · have sound := start_indexes initial
    obtain ⟨seed, serverUri, included, now, snapshots, clock, -, -, rfl⟩ := initial
    refine ⟨sound, ?_, ?_, nofun⟩ <;> intro at_ member <;> cases member
  · intro s action next _ aimed leaves ran
    exact aimed_step aimed leaves ran

/-! ## Whole runs -/

/-- Every registration that a delayed removal, run now, takes out of the
registry is of the endpoint the removal was scheduled for, and that endpoint is
not included. -/
def HitsOnlyTarget (env : Env) (s : Server) : Prop :=
  ∀ i task next id dev, s.removals.get? i = some task → s.step env (.removal i) = some next →
    s.devices.byId.lookup id = some dev → next.devices.byId.lookup id ≠ some dev →
    dev.endpoint = task.endpoint ∧ dev.endpoint ∉ next.boot.included

/-- A device that `remove_by_addr` takes out was indexed at the address. -/
theorem indexed_of_removed {addr : SocketAddr} {id : UInt32} {dev : Device}
    (stored : r.byId.lookup id = some dev)
    (gone : (r.removeByAddr addr).2.2.byId.lookup id ≠ some dev) : r.byAddr.lookup addr = some id := by
  unfold removeByAddr at gone
  cases index : r.byAddr.lookup addr with
  | none =>
    rw [index] at gone
    exact absurd stored gone
  | some other =>
    rw [index] at gone
    cases held : r.byId.lookup other with
    | none =>
      simp only [held] at gone
      exact absurd stored gone
    | some _ =>
      simp only [held, removeDevice, Table.lookup_erase_if] at gone
      by_cases same : id = other
      · rw [same]
      · rw [if_neg same] at gone
        exact absurd stored gone

/-- **The delayed removal hits only its target** in a run whose registrations
and inclusions leave the targets of outstanding removals alone. -/
theorem reached_hits_only_target (reached : (soundServer env).Reaches LeavesTargets s) :
    HitsOnlyTarget env s := by
  intro i task next id dev held ran stored gone
  have aimed := reached_aimed reached
  cases device_move aimed.sound.resolve ran with
  | other elsewhere => cases elsewhere
  | @remove _ scheduled replies present pending due =>
    rw [held] at present
    cases present
    have member : (task.endpoint, task.addr) ∈ outstanding s :=
      mem_outstanding.mpr (Or.inr ⟨i, task, held, pending, rfl⟩)
    have index : s.devices.byAddr.lookup task.addr = some id := indexed_of_removed stored gone
    have own : dev.endpoint = task.endpoint := aimed.owned _ member id dev index stored
    refine ⟨own, fun marked => ?_⟩
    have absent := aimed.absent _ member (own ▸ marked)
    rw [index] at absent
    cases absent

/-- A device that was refused and reset is removed ten seconds later. -/
def refusedThenRemoved : List Action :=
  Peer.deliver (Peer.post "rd" "mower") 6 ++ [.advance Server.removalDelay]

theorem refused_device_removed :
    ∃ s, (soundServer Peer.env).exec LeavesTargets Peer.server refusedThenRemoved = some s ∧
      HitsOnlyTarget Peer.env s ∧
      (s.step Peer.env (.removal 0)).any (·.devices.byEndpoint.lookup "mower" = none) = true := by
  have start : (soundServer Peer.env).start Peer.server :=
    ⟨0, some "coaps://gateway", [], 0, [], 0, by simp, by simp, rfl⟩
  obtain ⟨s, ran, reached, seen⟩ := (soundServer Peer.env).exec_reaches LeavesTargets _
    refusedThenRemoved
    (fun s => (s.step Peer.env (.removal 0)).any (·.devices.byEndpoint.lookup "mower" = none))
    start (by decide +kernel)
  exact ⟨s, ran, reached_hits_only_target reached, seen⟩

/-- A device that was refused is included and registers again within the ten
seconds, from the address it had. -/
def includedWithinDelay : List Action :=
  Peer.deliver (Peer.post "rd" "mower") 6 ++ Peer.approach "mower" Peer.genuine ++
    Peer.provision (.response .changed) ++ Peer.advance 0 3 ++
    Peer.deliver (Peer.post "rd" "mower") 4 ++ [.advance Server.removalDelay]

/-- The included device is removed. -/
theorem included_device_removed :
    ∃ s, (soundServer Peer.env).Reaches Machine.always s ∧ ¬ HitsOnlyTarget Peer.env s := by
  have start : (soundServer Peer.env).start Peer.server :=
    ⟨0, some "coaps://gateway", [], 0, [], 0, by simp, by simp, rfl⟩
  obtain ⟨s, -, reached, seen⟩ := (soundServer Peer.env).exec_reaches Machine.always _
    includedWithinDelay
    (fun s : Server => (s.devices.byId.lookup 1).any (fun dev : Device => dev.endpoint = "mower") &&
      (s.removals.get? 0).isSome && (s.step Peer.env (.removal 0)).any fun next : Server =>
        (next.devices.byId.lookup 1).isNone && decide ("mower" ∈ next.boot.included))
    start (by decide +kernel)
  refine ⟨s, reached, fun hits => ?_⟩
  simp only [Bool.and_eq_true] at seen
  obtain ⟨⟨stored, scheduled⟩, ran⟩ := seen
  obtain ⟨dev, stored, named⟩ := (Option.any_eq_true _ _).mp stored
  obtain ⟨task, held⟩ := Option.isSome_iff_exists.mp scheduled
  obtain ⟨next, ran, ended⟩ := (Option.any_eq_true _ _).mp ran
  obtain ⟨gone, marked⟩ := Bool.and_eq_true_iff.mp ended
  have absent := (hits 0 task next 1 dev held ran stored
    (by rw [Option.isNone_iff_eq_none.mp gone]; nofun)).2
  rw [of_decide_eq_true named] at absent
  exact absent (of_decide_eq_true marked)

end Lwm2mServer.DelayedRemoval
