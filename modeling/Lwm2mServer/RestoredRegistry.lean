import Lwm2mServer.Persistence
import Lwm2mServer.RegistryIndexes

/-! What `restore` makes of the entries `load_registry` returns. The entries go
into the three maps one after another with nothing checked, so an entry can
lose its device to a later one with the same id. `Unambiguous` says exactly
when none does. -/
namespace Lwm2mServer.RestoredRegistry
open Library DeviceRegistry RegistryIndexes

variable {r : DeviceRegistry} {now : Instant} {s : DeviceSnapshot} {snapshots : List DeviceSnapshot}

/-- The endpoint of a loaded entry resolves to a device of that endpoint at
the address that was loaded. -/
def Resolves (r : DeviceRegistry) (s : DeviceSnapshot) : Prop :=
  ∃ id dev, r.addrAndIdByEndpoint s.endpoint = some (some (s.addr, id, dev.objectVersions)) ∧
    r.byId.lookup id = some dev ∧ dev.endpoint = s.endpoint ∧ dev.addr = s.addr

/-- Every id in an index belongs to a device. -/
def NoDangling (r : DeviceRegistry) : Prop :=
  (∀ addr id, r.byAddr.lookup addr = some id → (r.byId.lookup id).isSome) ∧
    ∀ endpoint id, r.byEndpoint.lookup endpoint = some id → (r.byId.lookup id).isSome

/-- Entries that repeat an endpoint repeat its address, and the last entry of
an endpoint is followed by none with its id. -/
def Unambiguous : List DeviceSnapshot → Prop
  | [] => True
  | s :: rest =>
    Unambiguous rest ∧ (∀ t ∈ rest, t.endpoint = s.endpoint → t.addr = s.addr) ∧
      ((∀ t ∈ rest, t.endpoint ≠ s.endpoint) → ∀ t ∈ rest, t.id ≠ s.id)

instance Unambiguous.decidable : ∀ snapshots, Decidable (Unambiguous snapshots)
  | [] => isTrue trivial
  | _ :: rest =>
    have := Unambiguous.decidable rest
    inferInstanceAs (Decidable (_ ∧ _ ∧ (_ → _)))

/-- A new endpoint is given an id that is not in use. -/
def IdFree (r : DeviceRegistry) (op : Op) : Prop :=
  ∀ endpoint ∈ registers op, r.byEndpoint.lookup endpoint = none → r.byId.lookup r.nextId = none

instance (r : DeviceRegistry) (op : Op) : Decidable (IdFree r op) :=
  inferInstanceAs (Decidable (∀ endpoint ∈ registers op, _ → _))

/-! ## What later entries leave alone -/

theorem byEndpoint_restore {endpoint : String}
    (absent : ∀ t ∈ snapshots, t.endpoint ≠ endpoint) :
    (r.restore now snapshots).byEndpoint.lookup endpoint = r.byEndpoint.lookup endpoint := by
  induction snapshots generalizing r with
  | nil => rfl
  | cons s rest ih =>
    have other : endpoint ≠ s.endpoint := (absent s List.mem_cons_self).symm
    calc ((r.restoreOne now s).restore now rest).byEndpoint.lookup endpoint
        = (r.restoreOne now s).byEndpoint.lookup endpoint :=
          ih fun t member => absent t (List.mem_cons_of_mem s member)
      _ = r.byEndpoint.lookup endpoint := by simp [restoreOne, other]

theorem byAddr_restore {addr : SocketAddr} (absent : ∀ t ∈ snapshots, t.addr ≠ addr) :
    (r.restore now snapshots).byAddr.lookup addr = r.byAddr.lookup addr := by
  induction snapshots generalizing r with
  | nil => rfl
  | cons s rest ih =>
    have other : addr ≠ s.addr := (absent s List.mem_cons_self).symm
    calc ((r.restoreOne now s).restore now rest).byAddr.lookup addr
        = (r.restoreOne now s).byAddr.lookup addr :=
          ih fun t member => absent t (List.mem_cons_of_mem s member)
      _ = r.byAddr.lookup addr := by simp [restoreOne, other]

theorem byId_restore {id : UInt32} (absent : ∀ t ∈ snapshots, t.id ≠ id) :
    (r.restore now snapshots).byId.lookup id = r.byId.lookup id := by
  induction snapshots generalizing r with
  | nil => rfl
  | cons s rest ih =>
    have other : id ≠ s.id := (absent s List.mem_cons_self).symm
    calc ((r.restoreOne now s).restore now rest).byId.lookup id
        = (r.restoreOne now s).byId.lookup id :=
          ih fun t member => absent t (List.mem_cons_of_mem s member)
      _ = r.byId.lookup id := by simp [restoreOne, other]

/-- The device under a loaded id is one of the entries with that id. -/
private theorem byId_restored (member : s ∈ snapshots) :
    ∃ t ∈ snapshots, (r.restore now snapshots).byId.lookup s.id = some (restoredDevice now t) := by
  induction snapshots generalizing r s with
  | nil => cases member
  | cons head rest ih =>
    by_cases later : ∃ t ∈ rest, t.id = s.id
    · obtain ⟨t, inRest, same⟩ := later
      obtain ⟨u, inRest', held⟩ := ih (r := r.restoreOne now head) inRest
      rw [same] at held
      exact ⟨u, List.mem_cons_of_mem head inRest', held⟩
    · have absent : ∀ t ∈ rest, t.id ≠ s.id := fun t inRest same => later ⟨t, inRest, same⟩
      have mine : s = head := by
        rcases List.mem_cons.mp member with top | inRest
        · exact top
        · exact absurd rfl (absent s inRest)
      refine ⟨head, List.mem_cons_self, ?_⟩
      calc ((r.restoreOne now head).restore now rest).byId.lookup s.id
          = (r.restoreOne now head).byId.lookup s.id := byId_restore absent
        _ = some (restoredDevice now head) := by
          subst mine
          simp [restoreOne]

/-! ## The indexes after a restore -/

/-- What `Resolves` says of the two maps it reads. -/
private theorem resolves_iff :
    Resolves r s ↔ ∃ id dev, r.byEndpoint.lookup s.endpoint = some id ∧
      r.byId.lookup id = some dev ∧ dev.endpoint = s.endpoint ∧ dev.addr = s.addr := by
  constructor
  · rintro ⟨id, dev, found, held, own, here⟩
    cases known : r.byEndpoint.lookup s.endpoint with
    | none => simp [addrAndIdByEndpoint, known] at found
    | some other =>
      cases stored : r.byId.lookup other with
      | none => simp [addrAndIdByEndpoint, known, stored] at found
      | some at_ =>
        simp only [addrAndIdByEndpoint, known, stored, Option.map_some, Option.some.injEq,
          Prod.mk.injEq] at found
        obtain ⟨_, same, _⟩ := found
        subst same
        exact ⟨other, dev, rfl, held, own, here⟩
  · rintro ⟨id, dev, known, held, own, here⟩
    exact ⟨id, dev, by simp [addrAndIdByEndpoint, known, held, here], held, own, here⟩

/-- Nothing after the last entry of an endpoint takes its device away. -/
theorem resolves_of_unambiguous (clear : Unambiguous snapshots) (member : s ∈ snapshots) :
    Resolves (r.restore now snapshots) s := by
  induction snapshots generalizing r s with
  | nil => cases member
  | cons head rest ih =>
    obtain ⟨clear, sameAddr, lastId⟩ := clear
    rcases List.mem_cons.mp member with rfl | inRest
    · by_cases later : ∃ t ∈ rest, t.endpoint = s.endpoint
      · obtain ⟨t, inRest, same⟩ := later
        have resolved := ih (r := r.restoreOne now s) clear inRest
        rwa [Resolves, same, sameAddr t inRest same] at resolved
      · have absent : ∀ t ∈ rest, t.endpoint ≠ s.endpoint := fun t inRest same =>
          later ⟨t, inRest, same⟩
        have known : (r.restore now (s :: rest)).byEndpoint.lookup s.endpoint = some s.id :=
          (byEndpoint_restore absent).trans (by simp [restoreOne])
        have held : (r.restore now (s :: rest)).byId.lookup s.id = some (restoredDevice now s) :=
          (byId_restore (lastId absent)).trans (by simp [restoreOne])
        exact resolves_iff.mpr ⟨s.id, restoredDevice now s, known, held, rfl, rfl⟩
    · exact ih clear inRest

/-- The device found at a loaded address carries it. -/
private theorem byAddr_of_unambiguous (clear : Unambiguous snapshots) (member : s ∈ snapshots) :
    ∃ id dev, (r.restore now snapshots).byAddr.lookup s.addr = some id ∧
      (r.restore now snapshots).byId.lookup id = some dev ∧ dev.addr = s.addr := by
  induction snapshots generalizing r s with
  | nil => cases member
  | cons head rest ih =>
    obtain ⟨clear, sameAddr, lastId⟩ := clear
    rcases List.mem_cons.mp member with rfl | inRest
    · by_cases later : ∃ t ∈ rest, t.addr = s.addr
      · obtain ⟨t, inRest, same⟩ := later
        rw [← same]
        exact ih clear inRest
      · have absent : ∀ t ∈ rest, t.addr ≠ s.addr := fun t inRest same => later ⟨t, inRest, same⟩
        have lastOne := lastId fun t inRest same => absent t inRest (sameAddr t inRest same)
        have index : (r.restore now (s :: rest)).byAddr.lookup s.addr = some s.id :=
          (byAddr_restore absent).trans (by simp [restoreOne])
        have held : (r.restore now (s :: rest)).byId.lookup s.id = some (restoredDevice now s) :=
          (byId_restore lastOne).trans (by simp [restoreOne])
        exact ⟨s.id, restoredDevice now s, index, held, rfl⟩
    · exact ih clear inRest

theorem unambiguous_of_resolves
    (resolved : ∀ s ∈ snapshots, Resolves (r.restore now snapshots) s) :
    Unambiguous snapshots := by
  induction snapshots generalizing r with
  | nil => trivial
  | cons s rest ih =>
    obtain ⟨id, dev, known, held, own, here⟩ := resolves_iff.mp (resolved s List.mem_cons_self)
    refine ⟨ih (r := r.restoreOne now s) fun t inRest => resolved t (List.mem_cons_of_mem s inRest),
      ?_, ?_⟩
    · intro t inRest same
      obtain ⟨id', dev', known', held', _, here'⟩ :=
        resolves_iff.mp (resolved t (List.mem_cons_of_mem s inRest))
      rw [same, known] at known'
      cases known'
      rw [held] at held'
      cases held'
      exact here'.symm.trans here
    · intro absent t inRest same
      have known' : (r.restore now (s :: rest)).byEndpoint.lookup s.endpoint = some s.id :=
        (byEndpoint_restore absent).trans (by simp [restoreOne])
      rw [known] at known'
      cases known'
      have later : ∃ u ∈ rest,
          (r.restore now (s :: rest)).byId.lookup t.id = some (restoredDevice now u) :=
        byId_restored inRest
      obtain ⟨u, inRest', stored⟩ := later
      rw [same, held] at stored
      cases stored
      exact absent u inRest' own

/-- Under the condition both indexes of the restored registry resolve. -/
theorem resolve_restore (clear : Unambiguous snapshots) :
    IndexesResolve (DeviceRegistry.new.restore now snapshots) where
  byAddr := by
    intro addr id found
    by_cases loaded : ∃ s ∈ snapshots, s.addr = addr
    · obtain ⟨s, member, rfl⟩ := loaded
      obtain ⟨id', dev, index, held, here⟩ := byAddr_of_unambiguous clear member
      rw [found] at index
      cases index
      exact ⟨dev, held, here⟩
    · rw [byAddr_restore fun s member same => loaded ⟨s, member, same⟩] at found
      simp [new] at found
  byEndpoint := by
    intro endpoint id found
    by_cases loaded : ∃ s ∈ snapshots, s.endpoint = endpoint
    · obtain ⟨s, member, rfl⟩ := loaded
      obtain ⟨id', dev, index, held, own, _⟩ :=
        resolves_iff.mp (resolves_of_unambiguous clear member)
      rw [found] at index
      cases index
      exact ⟨dev, held, own⟩
    · rw [byEndpoint_restore fun s member same => loaded ⟨s, member, same⟩] at found
      simp [new] at found

/-! ## Whole runs -/

/-- The registry after a restart with these entries. -/
def restarted (now : Instant) (snapshots : List DeviceSnapshot) : Machine DeviceRegistry Op where
  start r := r = DeviceRegistry.new.restore now snapshots
  step := apply

theorem reached_resolve (clear : Unambiguous snapshots)
    (reached : (restarted now snapshots).Reaches IdFree r) : IndexesResolve r := by
  refine reached.invariant IndexesResolve (fun _ initial => initial ▸ resolve_restore clear) ?_
  intro r op next _ resolve free ran
  rcases apply_cases resolve ran with ⟨quiet, _⟩ | ⟨now, endpoint, addr, reg, id, rfl, registered⟩
  · exact resolve_quiet resolve quiet
  · exact resolve_registered resolve registered (free endpoint rfl)

theorem noDangling_of_resolve (resolve : IndexesResolve r) : NoDangling r := by
  constructor
  · intro addr id found
    obtain ⟨dev, held, _⟩ := resolve.byAddr addr id found
    simp [held]
  · intro endpoint id found
    obtain ⟨dev, held, _⟩ := resolve.byEndpoint endpoint id found
    simp [held]

/-- **A document is restored to a sound registry exactly if its entries are
unambiguous**: every loaded endpoint then resolves to its own device, and no
run in which new endpoints find their ids free reaches a dangling id or a call
that panics. -/
theorem restored_sound_iff (unixNow : Nat) (now : Instant) (doc : Option Json) :
    ((∀ s ∈ loadRegistry unixNow doc,
        Resolves (DeviceRegistry.new.restore now (loadRegistry unixNow doc)) s) ∧
      ∀ r, (restarted now (loadRegistry unixNow doc)).Reaches IdFree r →
        NoDangling r ∧ ∀ op, r.apply op ≠ none) ↔
    Unambiguous (loadRegistry unixNow doc) := by
  constructor
  · rintro ⟨resolved, _⟩
    exact unambiguous_of_resolves resolved
  · intro clear
    refine ⟨fun s member => resolves_of_unambiguous clear member, fun r reached => ?_⟩
    have resolve := reached_resolve clear reached
    exact ⟨noDangling_of_resolve resolve, apply_no_panic resolve⟩

/-- A client entry as an older version wrote it, without `reg_id`. -/
def clientWithoutId (endpoint : String) (ip : String) : Json :=
  .obj [("end_of_life", .int 1800000000), ("ep", .str ("urn:dev:sg:" ++ endpoint)),
    ("session", .obj [("id", .arr [.str ip, .int 20017])])]

def documentWithoutIds : Json :=
  .obj [("clients", .arr [clientWithoutId "mower" "fc00::1", clientWithoutId "pump" "fc00::2"])]

/-- Both entries get id 0. The first endpoint then resolves to the second
device, and once that device is gone the first endpoint's id dangles. -/
theorem restored_without_ids :
    (¬ ∀ s ∈ loadRegistry 1700000000 (some documentWithoutIds),
      Resolves (DeviceRegistry.new.restore 0
        (loadRegistry 1700000000 (some documentWithoutIds))) s) ∧
    ∃ r, (restarted 0 (loadRegistry 1700000000 (some documentWithoutIds))).Reaches IdFree r ∧
      ¬ NoDangling r := by
  constructor
  · intro resolved
    exact absurd (unambiguous_of_resolves resolved) (by decide +kernel)
  · obtain ⟨r, _, reached, seen⟩ :=
      (restarted 0 (loadRegistry 1700000000 (some documentWithoutIds))).exec_reaches IdFree _
        [.removeByAddr (.v6 0xfc000000000000000000000000000002 20017 0 0)]
        (fun r => r.byEndpoint.lookup "mower" = some 0 && (r.byId.lookup 0).isNone) rfl
        (by decide +kernel)
    refine ⟨r, reached, fun sound => ?_⟩
    obtain ⟨index, gone⟩ := Bool.and_eq_true_iff.mp seen
    have held := sound.2 "mower" 0 (of_decide_eq_true index)
    rw [Option.isNone_iff_eq_none.mp gone] at held
    cases held

end Lwm2mServer.RestoredRegistry
