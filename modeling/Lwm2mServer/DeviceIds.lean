import Mathlib.Algebra.GroupWithZero.Nat
import Lwm2mServer.DeviceRecords
import Lwm2mServer.RegistryIndexes

/-! Where the ids of devices come from. Ids are handed out in the order
1, 2, … and begin again at 1 behind `2 ^ 32 - 1`; `restore` puts the counter
behind the ids it restores, except that behind `2 ^ 32 - 1` it goes to 0. Nothing
asks whether an id is free. Devices are numbered without a bound here, in the
order they were registered, and the numbers say exactly when it is. -/
namespace Lwm2mServer.DeviceIds
open Library DeviceRecords DeviceRegistry

/-- A restored device has its id as number, one registered since then the next
number at that time. -/
structure Census where
  devices : DeviceRegistry
  numbers : UInt32 → Nat
  next : Nat

/-- The ids that are handed out again and again. -/
def cycle : Nat := 2 ^ 32 - 1

/-- The id of the device with a number. -/
def idOf (number : Nat) : UInt32 :=
  if number = 0 then 0 else UInt32.ofNat ((number - 1) % cycle + 1)

/-- Two numbers stand for the same id: they lie whole rounds apart. Number 0 is
in no round. -/
def SameTurn (m n : Nat) : Prop := (m = 0 ∧ n = 0) ∨ (0 < m ∧ 0 < n ∧ m % cycle = n % cycle)

instance (m n : Nat) : Decidable (SameTurn m n) := inferInstanceAs (Decidable (_ ∨ _ ∧ _ ∧ _))

/-- The call registers an endpoint that is not registered. -/
def isNew (r : DeviceRegistry) : Op → Bool
  | .register _ endpoint _ _ => (r.byEndpoint.lookup endpoint).isNone
  | _ => false

def step (s : Census) (op : Op) : Option Census :=
  (s.devices.apply op).map fun devices =>
    if isNew s.devices op then
      ⟨devices, Function.update s.numbers s.devices.nextId s.next, s.next + 1⟩
    else { s with devices }

/-- What `restore` leaves; the numbers go on from `next_id`. -/
def restored (now : Instant) (snapshots : List DeviceSnapshot) : Census where
  devices := DeviceRegistry.new.restore now snapshots
  numbers := UInt32.toNat
  next := (DeviceRegistry.new.restore now snapshots).nextId.toNat

def machine : Machine Census Op where
  start s := ∃ now snapshots, (snapshots.map (·.id)).Nodup ∧ s = restored now snapshots
  step := step

/-- No registered device has a number that stands for the same id as the next. -/
def TurnFree (s : Census) : Prop :=
  ∀ id dev, s.devices.byId.lookup id = some dev → ¬SameTurn (s.numbers id) s.next

/-- The id a registration returns belongs to no registered device, and the
devices that are registered stay as they are. -/
def TakesFree (r : DeviceRegistry) (now : Instant) (endpoint : String) (addr : SocketAddr)
    (reg : Registration) : Prop :=
  ∃ id after, r.register now endpoint addr reg = some (id, after) ∧ r.byId.lookup id = none ∧
    ∀ other dev, r.byId.lookup other = some dev → after.byId.lookup other = some dev

variable {s s' : Census} {r r' : DeviceRegistry} {op : Op} {id : UInt32} {dev : Device} {m n : Nat}

/-! ## Numbers and ids -/

theorem toNat_idOf (n : Nat) : (idOf n).toNat = if n = 0 then 0 else (n - 1) % cycle + 1 := by
  unfold idOf
  split
  · rfl
  · rw [UInt32.toNat_ofNat', cycle]
    omega

theorem idOf_eq_iff : idOf m = idOf n ↔ SameTurn m n := by
  rw [← UInt32.toNat_inj, toNat_idOf, toNat_idOf]
  simp only [SameTurn, cycle]
  split <;> split <;> omega

/-- An id is the one of its own number. -/
theorem idOf_toNat (id : UInt32) : idOf id.toNat = id := by
  rw [← UInt32.toNat_inj, toNat_idOf, cycle]
  have bound := id.toNat_lt
  split <;> omega

/-- The counter of `register` goes on to the id of the next number. -/
theorem idOf_succ (n : Nat) : max (idOf n + 1) 1 = idOf (n + 1) := by
  cases n with
  | zero => decide
  | succ n =>
    have one : (1 : UInt32).toNat = 1 := rfl
    have wraps : (idOf (n + 1) + 1).toNat = (n % cycle + 1 + 1) % 2 ^ 32 := by
      rw [UInt32.toNat_add, one, toNat_idOf, if_neg (Nat.succ_ne_zero n), Nat.add_sub_cancel]
    rw [← UInt32.toNat_inj, toNat_idOf, if_neg (Nat.succ_ne_zero (n + 1)), Nat.add_sub_cancel]
    change (if idOf (n + 1) + 1 ≤ 1 then 1 else idOf (n + 1) + 1).toNat = _
    rw [cycle] at wraps ⊢
    split
    · rename_i small
      rw [UInt32.le_iff_toNat_le, wraps, one] at small
      rw [one]
      omega
    · rename_i large
      rw [UInt32.le_iff_toNat_le, wraps, one] at large
      rw [wraps]
      omega

/-! ## One call -/

private theorem expireStale_nextId (now : Instant) (graceSecs : UInt32) :
    (r.expireStale now graceSecs).2.2.nextId = r.nextId := by
  unfold expireStale
  generalize (r.byId.values.filter (·.isExpired now graceSecs)).map (·.id) = expired
  suffices loop : ∀ acc : List String × List Reply × DeviceRegistry,
      (expired.foldl expireOne acc).2.2.nextId = acc.2.2.nextId from loop ([], [], r)
  induction expired with
  | nil => exact fun acc => rfl
  | cons first rest ih =>
    intro acc
    rw [List.foldl_cons, ih, expireOne]
    split <;> rfl

/-- Only a new endpoint moves the counter. -/
private theorem apply_nextId (ran : r.apply op = some r') :
    r'.nextId = if isNew r op then max (r.nextId + 1) 1 else r.nextId := by
  cases op with
  | register now endpoint addr reg =>
    obtain ⟨result, registered, rfl⟩ := Option.map_eq_some_iff.mp ran
    cases known : r.byEndpoint.lookup endpoint with
    | none =>
      simp only [register, known, Option.some.injEq] at registered
      subst registered
      simp [isNew, known]
    | some target =>
      simp only [register, known, Option.bind_eq_bind, Option.bind_eq_some_iff] at registered
      obtain ⟨dev, -, found, -, registered⟩ := registered
      cases registered
      simp only [isNew, known, Option.isNone_some, Bool.false_eq_true, if_false, putDevice]
      split <;> rfl
  | expireStale now graceSecs =>
    cases ran
    exact expireStale_nextId now graceSecs
  | removeByAddr addr =>
    cases ran
    unfold removeByAddr
    split
    · rfl
    · split <;> rfl
  | _ =>
    cases apply_rewritten rfl ran with
    | kept => rfl
    | put => rfl
    | map => rfl

/-- Every device after a call was there before, or was registered by it. -/
private theorem apply_ids (ran : r.apply op = some r') (held : r'.byId.lookup id = some dev) :
    (∃ before, r.byId.lookup id = some before) ∨ isNew r op = true ∧ id = r.nextId := by
  rcases apply_device ran held with ⟨before, stored, -⟩ | ⟨now, endpoint, addr, reg, rfl, unknown, here, -⟩
  · exact Or.inl ⟨before, stored⟩
  · exact Or.inr ⟨by rw [isNew, unknown]; rfl, here⟩

/-- The numbers and the counter agree with the ids. -/
structure Agrees (s : Census) : Prop where
  next : idOf s.next = s.devices.nextId
  held : ∀ id dev, s.devices.byId.lookup id = some dev → idOf (s.numbers id) = id

private theorem agrees_step (agrees : Agrees s) (ran : step s op = some s') : Agrees s' := by
  obtain ⟨devices, applied, rfl⟩ := Option.map_eq_some_iff.mp ran
  have counter := apply_nextId applied
  by_cases new : isNew s.devices op = true
  · rw [if_pos new] at counter ⊢
    constructor
    · rw [← idOf_succ, agrees.next, counter]
    · intro id dev held
      by_cases same : id = s.devices.nextId
      · subst same
        dsimp only
        rw [Function.update_self, agrees.next]
      · dsimp only
        rw [Function.update_of_ne same]
        rcases apply_ids applied held with ⟨before, stored⟩ | ⟨-, here⟩
        · exact agrees.held id before stored
        · exact absurd here same
  · rw [if_neg new] at counter ⊢
    constructor
    · rw [agrees.next, counter]
    · intro id dev held
      rcases apply_ids applied held with ⟨before, stored⟩ | ⟨registers, -⟩
      · exact agrees.held id before stored
      · exact absurd registers new

theorem reaches_agrees (reached : machine.Reaches Machine.always s) : Agrees s := by
  refine reached.invariant Agrees ?_ ?_
  · rintro _ ⟨now, snapshots, -, rfl⟩
    exact ⟨idOf_toNat _, fun id _ _ => idOf_toNat id⟩
  · exact fun _ _ _ _ agrees _ ran => agrees_step agrees ran

/-! ## New ids -/

section Registration
variable {now : Instant} {endpoint : String} {addr : SocketAddr} {reg : Registration}

/-- A registration of a new endpoint takes the id in the counter. -/
private theorem takesFree_iff (unknown : r.byEndpoint.lookup endpoint = none) :
    TakesFree r now endpoint addr reg ↔ r.byId.lookup r.nextId = none := by
  simp only [TakesFree, register, unknown, Option.some.injEq, Prod.mk.injEq]
  constructor
  · rintro ⟨_, _, ⟨rfl, -⟩, free, -⟩
    exact free
  · intro free
    refine ⟨_, _, ⟨rfl, rfl⟩, free, fun other dev held => ?_⟩
    have apart : other ≠ r.nextId := by
      rintro rfl
      rw [free] at held
      cases held
    rw [Table.lookup_insert_if, if_neg apart, held]

private theorem Agrees.free_iff (agrees : Agrees s) :
    s.devices.byId.lookup s.devices.nextId = none ↔ TurnFree s := by
  constructor
  · intro free id dev held same
    have here := agrees.held id dev held
    rw [idOf_eq_iff.mpr same, agrees.next] at here
    rw [here, held] at free
    cases free
  · intro free
    cases held : s.devices.byId.lookup s.devices.nextId with
    | none => rfl
    | some dev =>
      refine absurd (idOf_eq_iff.mp ?_) (free _ dev held)
      rw [agrees.held _ dev held, agrees.next]

/-- **A registration takes a free id exactly when no device has its turn.** -/
theorem takes_free_iff (reached : machine.Reaches Machine.always s)
    (unknown : s.devices.byEndpoint.lookup endpoint = none) :
    TakesFree s.devices now endpoint addr reg ↔ TurnFree s := by
  rw [takesFree_iff unknown]
  exact (reaches_agrees reached).free_iff

end Registration

def reg : Registration := ⟨86400, [], ∅, "1.0", "U"⟩

def peer (port : UInt16) : SocketAddr := .v6 0xfc000006010000000000000000000001 port 0 0

def snapshot (id : UInt32) (endpoint : String) (addr : SocketAddr) : DeviceSnapshot where
  id
  endpoint
  addr
  lifetime := 86400
  objects := []
  objectVersions := ∅
  lwm2mVersion := "1.0"
  bindingMode := "U"
  endOfLife := 0

/-- The ids begin again while three devices are registered, after the one with
id 1 has gone. -/
def nextRound : List Op :=
  [.register 0 "sensor" (peer 3) reg, .register 0 "pump" (peer 4) reg, .removeByAddr (peer 1)]

/-- The next device gets id 1, and no other loses its own. -/
theorem takes_free_nextRound : ∃ s, machine.exec Machine.always
      (restored 0 [snapshot 1 "mower" (peer 1), snapshot 0xFFFFFFFD "valve" (peer 2)]) nextRound = some s ∧
    s.devices.nextId = 1 ∧ s.devices.byId.lookup 0xFFFFFFFD ≠ none ∧
    s.devices.byId.lookup 0xFFFFFFFE ≠ none ∧ s.devices.byId.lookup 0xFFFFFFFF ≠ none ∧
    TakesFree s.devices 0 "lamp" (peer 5) reg := by
  obtain ⟨s, ran, reached, seen⟩ := machine.exec_reaches Machine.always
    (restored 0 [snapshot 1 "mower" (peer 1), snapshot 0xFFFFFFFD "valve" (peer 2)]) nextRound
    (fun s => decide (s.devices.nextId = 1 ∧ s.devices.byEndpoint.lookup "lamp" = none ∧
        s.devices.byId.keys = [0xFFFFFFFF, 0xFFFFFFFE, 0xFFFFFFFD]) &&
      s.devices.byId.keys.all fun id => !decide (SameTurn (s.numbers id) s.next))
    ⟨0, _, by decide, rfl⟩ (by decide +kernel)
  obtain ⟨position, apart⟩ := Bool.and_eq_true_iff.mp seen
  obtain ⟨next, unknown, live⟩ := of_decide_eq_true position
  have stored (id : UInt32) (member : id ∈ s.devices.byId.keys) : s.devices.byId.lookup id ≠ none := by
    rw [ne_eq, AList.lookup_eq_none]
    exact fun absent => absent member
  refine ⟨s, ran, next, stored _ (by simp [live]), stored _ (by simp [live]), stored _ (by simp [live]), ?_⟩
  refine (takes_free_iff reached unknown).mpr fun id dev held same => ?_
  have member : id ∈ s.devices.byId.keys := AList.mem_keys.mp (AList.lookup_isSome.mp (by rw [held]; rfl))
  have other := List.all_eq_true.mp apart id member
  rw [decide_eq_true same] at other
  cases other

/-! ## The first round -/

/-- The machine without the id behind which `restore` goes to 0. -/
def regular : Machine Census Op where
  start s := ∃ now snapshots, (∀ snapshot ∈ snapshots, snapshot.id.toNat + 1 < 2 ^ 32) ∧
    s = restored now snapshots
  step := step

/-- The numbers of all devices lie below the next. -/
private def Below (s : Census) : Prop :=
  ∀ id dev, s.devices.byId.lookup id = some dev → s.numbers id < s.next

private theorem below_step (below : Below s) (ran : step s op = some s') : Below s' := by
  obtain ⟨devices, applied, rfl⟩ := Option.map_eq_some_iff.mp ran
  by_cases new : isNew s.devices op = true
  · rw [if_pos new]
    intro id dev held
    by_cases same : id = s.devices.nextId
    · subst same
      dsimp only
      rw [Function.update_self]
      exact Nat.lt_succ_self _
    · dsimp only
      rw [Function.update_of_ne same]
      rcases apply_ids applied held with ⟨before, stored⟩ | ⟨-, here⟩
      · exact Nat.lt_succ_of_lt (below id before stored)
      · exact absurd here same
  · rw [if_neg new]
    intro id dev held
    rcases apply_ids applied held with ⟨before, stored⟩ | ⟨registers, -⟩
    · exact below id before stored
    · exact absurd registers new

/-- Before the ids begin again, every new one is free. -/
theorem first_round_free (reached : regular.Reaches Machine.always s) (within : s.next ≤ cycle) :
    TurnFree s := by
  have below : Below s := by
    refine reached.invariant Below ?_ fun _ _ _ _ below _ ran => below_step below ran
    rintro _ ⟨now, snapshots, small, rfl⟩
    exact RegistryIndexes.allocated_restore now snapshots nofun small
  intro id dev held same
  have earlier := below id dev held
  simp only [SameTurn, cycle] at same within
  omega

/-! ## A restored id of `2 ^ 32 - 1` -/

/-- Behind the last id `restore` goes to 0, and the second new device takes the
id of a restored one. -/
theorem restored_device_overwritten :
    ¬ (∀ s, machine.Reaches Machine.always s → ∀ now endpoint addr reg,
      s.devices.byEndpoint.lookup endpoint = none → TakesFree s.devices now endpoint addr reg) := by
  intro free
  obtain ⟨s, -, reached, seen⟩ := machine.exec_reaches Machine.always
    (restored 0 [snapshot 1 "mower" (peer 1), snapshot 0xFFFFFFFF "valve" (peer 2)])
    [.register 0 "sensor" (peer 3) reg]
    (fun s => decide (s.devices.byEndpoint.lookup "pump" = none ∧ s.devices.nextId = 1) &&
      (s.devices.byId.lookup 1).isSome)
    ⟨0, _, by decide, rfl⟩ (by decide +kernel)
  obtain ⟨turn, held⟩ := Bool.and_eq_true_iff.mp seen
  obtain ⟨unknown, next⟩ := of_decide_eq_true turn
  have taken := (takesFree_iff unknown).mp (free s reached 0 "pump" (peer 4) reg unknown)
  rw [next] at taken
  rw [taken] at held
  cases held

end Lwm2mServer.DeviceIds
