import Lwm2mServer.FirmwareUploads
import Lwm2mServer.ResourceNames

/-! The two resources with handlers of their own, the factory reset of a device
and its firmware package. The handlers are chosen by the text of the path, the
resource by its parts: the instance is parsed as a number, and the names are
looked up. `Denotes` says which texts are paths of such a resource, and
`intercepted_iff` that all but one of them lead around its handler. -/
namespace Lwm2mServer.SpecialPaths
open Library ResourceNames FirmwareUploads

/-! ## What a path denotes -/

/-- Read as the number zero: a plus sign or none, and zeros. -/
def SpelledZero (text : String) : Prop :=
  ∃ n, text.toList = List.replicate (n + 1) '0' ∨ text.toList = '+' :: List.replicate (n + 1) '0'

/-- The path has the names of a resource of the device, in instance 0; the ids
count as the 16 bits a path has. -/
def Denotes (ipso : IpsoModel) (devices : DeviceRegistry) (device path : String)
    (objectId resourceId : UInt16) : Prop :=
  ∃ object inst resource : String, path = object ++ "/" ++ inst ++ "/" ++ resource ∧
    '/' ∉ object.toList ∧ SpelledZero inst ∧
    ∃ objId addr id versions resId, ipso.objectIdByName object = some objId ∧
      devices.addrAndIdByEndpoint device = some (some (addr, id, versions)) ∧
      ipso.resourceIdByName objId resource (versions.lookup objId) = some resId ∧
      objId.toUInt16 = objectId ∧ resId.toUInt16 = resourceId

/-- Commands on the path go to the handlers of the two resources, wherever the
path leads to one. -/
structure Intercepted (ipso : IpsoModel) (devices : DeviceRegistry) (device path : String) : Prop where
  executes : ∀ addr args,
    resolveResource ipso devices path device = some (some (addr, factoryResetPath)) →
    handleExecutePath ipso devices path device args = some .exclusion
  writes : ∀ addr value, resolveResource ipso devices path device = some (some (addr, fotaPath)) →
    handleWritePath ipso devices path device value = some .firmware
  noReset : ∀ args addr args', handleExecutePath ipso devices path device args ≠
    some (.dispatched addr (.execute factoryResetPath args'))
  noFirmware : ∀ value addr bytes contentFormat, handleWritePath ipso devices path device value ≠
    some (.dispatched addr (.write fotaPath bytes contentFormat))

/-- The firmware handler hands its write over under the lock. -/
structure UnderLock (env : Env) (ipso : IpsoModel) : Prop where
  spawned : ∀ (s : Ipc) device bytes value, s.step env ipso (.write Ipc.packagePath device bytes value) =
    some { s with uploads := s.uploads.spawn ⟨device, bytes, .find⟩ }
  locked : ∀ (s s' : Ipc) id, (Ipc.machine env ipso).Reaches Machine.always s →
    s.step env ipso (.upload id) = some s' → s'.gateway = s.gateway ∨ s.fotaLock = true

variable {ipso : IpsoModel} {devices : DeviceRegistry} {device path : String} {env : Env}

/-! ## Numbers -/

private theorem foldl_eq_zero_iff {digits : List Char} (all : digits.all Char.isDigit) (acc : Nat) :
    digits.foldl (fun acc digit => acc * 10 + (digit.toNat - '0'.toNat)) acc = 0 ↔
      acc = 0 ∧ ∀ digit ∈ digits, digit = '0' := by
  induction digits generalizing acc with
  | nil => simp
  | cons digit rest ih =>
    rw [List.all_cons, Bool.and_eq_true] at all
    have low : '0'.toNat ≤ digit.toNat := by
      simp only [Char.isDigit, Bool.and_eq_true, decide_eq_true_eq] at all
      exact UInt32.le_iff_toNat_le.mp all.1.1
    have zero : digit.toNat - '0'.toNat = 0 ↔ digit = '0' := by
      rw [← Char.toNat_inj]
      omega
    rw [List.foldl_cons, ih all.2, List.forall_mem_cons, ← zero, ← and_assoc]
    refine and_congr_left fun _ => ?_
    omega

/-- Digits that make zero. -/
private theorem zeros_iff (digits : List Char) :
    (digits ≠ [] ∧ digits.all Char.isDigit ∧
      digits.foldl (fun acc digit => acc * 10 + (digit.toNat - '0'.toNat)) 0 = 0) ↔
    ∃ n, digits = List.replicate (n + 1) '0' := by
  constructor
  · rintro ⟨some_, all, value⟩
    obtain ⟨n, length⟩ := Nat.exists_eq_add_one_of_ne_zero (List.length_eq_zero_iff.not.mpr some_)
    exact ⟨n, List.eq_replicate_iff.mpr ⟨length, ((foldl_eq_zero_iff all 0).mp value).2⟩⟩
  · rintro ⟨n, rfl⟩
    have all : (List.replicate (n + 1) '0').all Char.isDigit := by simp
    refine ⟨by simp, all, (foldl_eq_zero_iff all 0).mpr ⟨rfl, fun digit member => ?_⟩⟩
    exact List.eq_of_mem_replicate member

private theorem value_eq_zero_iff (digits : List Char) :
    (if digits ≠ [] ∧ digits.all Char.isDigit then
        let value := digits.foldl (fun acc digit => acc * 10 + (digit.toNat - '0'.toNat)) 0
        if value < 2 ^ 32 then some (UInt32.ofNat value) else none
      else none) = some 0 ↔
    ∃ n, digits = List.replicate (n + 1) '0' := by
  rw [← zeros_iff]
  constructor
  · intro zero
    split at zero
    · rename_i form
      dsimp only at zero
      split at zero
      · rename_i small
        have value := congrArg UInt32.toNat (Option.some.inj zero)
        rw [UInt32.toNat_ofNat_of_lt' small] at value
        exact ⟨form.1, form.2, value⟩
      · cases zero
    · cases zero
  · rintro ⟨some_, all, zero⟩
    rw [if_pos ⟨some_, all⟩, zero]
    rfl

private theorem parseU32_eq_zero_iff (text : String) : parseU32 text = some 0 ↔ SpelledZero text := by
  unfold parseU32 SpelledZero
  dsimp only
  rw [value_eq_zero_iff]
  refine exists_congr fun n => ?_
  split
  · rename_i rest signed
    rw [signed, List.cons.injEq, and_iff_right rfl, or_iff_right]
    simp [List.replicate_succ]
  · rename_i unsigned
    exact (or_iff_left (unsigned _)).symm

theorem parseU16_eq_zero_iff (text : String) : parseU16 text = some 0 ↔ SpelledZero text := by
  rw [← parseU32_eq_zero_iff, parseU16, Option.bind_eq_some_iff]
  constructor
  · rintro ⟨value, found, small⟩
    split at small
    · rename_i bound
      have low := congrArg UInt16.toNat (Option.some.inj small)
      rw [UInt32.toNat_toUInt16, Nat.mod_eq_of_lt bound] at low
      rw [found, UInt32.toNat_inj.mp (show value.toNat = (0 : UInt32).toNat from low)]
    · cases small
  · intro zero
    exact ⟨0, zero, rfl⟩

/-! ## The handlers -/

private theorem slashless_of_zero {text : String} (zero : SpelledZero text) : '/' ∉ text.toList := by
  obtain ⟨n, plain | signed⟩ := zero
  · rw [plain]
    simp
  · rw [signed]
    simp

/-- The paths that lead to a resource in instance 0. -/
theorem resolves_iff {objectId resourceId : UInt16} :
    (∃ addr, resolveResource ipso devices path device = some (some (addr, ⟨objectId, 0, resourceId⟩))) ↔
      Denotes ipso devices device path objectId resourceId := by
  unfold resolveResource Denotes
  constructor
  · rintro ⟨addr, resolved⟩
    dsimp only at resolved
    split at resolved
    · cases resolved
    · rename_i objId instId resource named
      obtain ⟨⟨object, inst, rest⟩, parts, rest_⟩ := Option.bind_eq_some_iff.mp named
      obtain ⟨instId', number, rest_⟩ := Option.bind_eq_some_iff.mp rest_
      obtain ⟨objId', known, rest_⟩ := Option.bind_eq_some_iff.mp rest_
      cases rest_
      obtain ⟨found, registered, looked⟩ := Option.bind_eq_some_iff.mp resolved
      obtain ⟨⟨addr', id, versions⟩, rfl, looked'⟩ := Option.bind_eq_some_iff.mp (Option.some.inj looked)
      obtain ⟨resId, resourceKnown, made⟩ := Option.bind_eq_some_iff.mp looked'
      cases made
      obtain ⟨text, slashless, -⟩ := splitPath_eq_some_iff.mp parts
      exact ⟨object, inst, rest, text, slashless, (parseU16_eq_zero_iff inst).mp number, objId, _, id,
        versions, resId, known, registered, resourceKnown, rfl, rfl⟩
  · rintro ⟨object, inst, resource, text, slashless, zero, objId, addr, id, versions, resId, known,
      registered, resourceKnown, rfl, rfl⟩
    refine ⟨addr, ?_⟩
    have parts := splitPath_eq_some_iff.mpr ⟨text, slashless, slashless_of_zero zero⟩
    simp [parts, (parseU16_eq_zero_iff inst).mpr zero, known, registered, resourceKnown]

/-- **Which paths go around the special handlers.** Commands on a path go to the
handlers exactly if the path is no other spelling of the two resources. -/
theorem intercepted_iff :
    Intercepted ipso devices device path ↔
      (Denotes ipso devices device path 3 5 → path = factoryResetName) ∧
        (Denotes ipso devices device path 5 0 → path = Ipc.packagePath) := by
  rw [← resolves_iff, ← resolves_iff]
  constructor
  · intro intercepted
    constructor
    · rintro ⟨addr, resolved⟩
      have executed := intercepted.executes addr none resolved
      by_contra other
      rw [handleExecutePath, if_neg other, resolved] at executed
      cases executed
    · rintro ⟨addr, resolved⟩
      have written := intercepted.writes addr (some ([], 0)) resolved
      by_contra other
      rw [handleWritePath, if_neg other, resolved] at written
      cases written
  · rintro ⟨reset, firmware⟩
    refine ⟨fun addr args resolved => ?_, fun addr value resolved => ?_, ?_, ?_⟩
    · rw [handleExecutePath, if_pos (reset ⟨addr, resolved⟩)]
    · rw [handleWritePath, if_pos (firmware ⟨addr, resolved⟩)]
    · intro args addr args' raw
      unfold handleExecutePath at raw
      split at raw
      · cases raw
      · rename_i other
        obtain ⟨found, resolved, raw⟩ := Option.map_eq_some_iff.mp raw
        cases found with
        | none => cases raw
        | some pair =>
          obtain ⟨addr', target⟩ := pair
          cases raw
          exact other (reset ⟨addr, resolved⟩)
    · intro value addr bytes contentFormat raw
      unfold handleWritePath at raw
      split at raw
      · cases raw
      · rename_i other
        obtain ⟨found, resolved, raw⟩ := Option.map_eq_some_iff.mp raw
        cases found with
        | none => cases raw
        | some pair =>
          obtain ⟨addr', target⟩ := pair
          cases value with
          | none => cases raw
          | some value =>
            cases raw
            exact other (firmware ⟨addr, resolved⟩)

theorem underLock (env : Env) (ipso : IpsoModel) : UnderLock env ipso where
  spawned _ _ _ _ := by simp only [Ipc.step, if_pos]
  locked s s' id reached ran := by
    have held := reached_held reached
    obtain ⟨task, found, ran⟩ := Option.bind_eq_some_iff.mp ran
    cases pc : task.pc with
    | dispatch addr =>
      have holder : 0 < s.uploads.all.countP holdsLock :=
        List.countP_pos_iff.mpr ⟨task, List.mem_of_getElem? found, by rw [holdsLock, pc]⟩
      refine Or.inr (Bool.toNat_eq_one.mp ?_)
      have one := Bool.toNat_le s.fotaLock
      omega
    | find =>
      simp only [pc] at ran
      obtain ⟨device, -, ran⟩ := Option.bind_eq_some_iff.mp ran
      cases ran
      exact Or.inl rfl
    | lock | waitFirst =>
      simp only [pc] at ran
      split at ran <;> cases ran <;> exact Or.inl rfl
    | waitSingle | watch =>
      simp only [pc] at ran
      cases ran
      exact Or.inl rfl
    | finished =>
      simp only [pc] at ran
      cases ran

/-- **The special resources and other spellings of their paths.** Commands on a
path go to the special handlers exactly if it is no other spelling, and a write
that goes to the firmware handler is handed over under the lock. -/
theorem special_paths (env : Env) (ipso : IpsoModel) (devices : DeviceRegistry) (device path : String) :
    (Intercepted ipso devices device path ↔
      (Denotes ipso devices device path 3 5 → path = factoryResetName) ∧
        (Denotes ipso devices device path 5 0 → path = Ipc.packagePath)) ∧ UnderLock env ipso :=
  ⟨intercepted_iff, underLock env ipso⟩

private def deviceModel : IpsoModel where
  objects := (∅ : Table UInt32 (Table String ObjectDef)).insert 3 ((∅ : Table String ObjectDef).insert ""
    ⟨"device", "urn:oma:lwm2m:oma:3",
      (∅ : Table UInt32 ResourceDef).insert 5 ⟨"factory_reset", .string, false⟩⟩)

private def oneMower : DeviceRegistry :=
  DeviceRegistry.new.restore 0 [⟨1, "mower", Peer.addr, 60, [], ∅, "1.1", "", 60⟩]

/-- A second zero leads to the factory reset itself. -/
theorem reset_respelled :
    handleExecutePath deviceModel oneMower "device/00/factory_reset" "mower" none =
        some (.dispatched Peer.addr (.execute factoryResetPath none)) ∧
      ¬ Intercepted deviceModel oneMower "mower" "device/00/factory_reset" := by
  have resolved : resolveResource deviceModel oneMower "device/00/factory_reset" "mower" =
      some (some (Peer.addr, factoryResetPath)) := by decide +kernel
  have executed : handleExecutePath deviceModel oneMower "device/00/factory_reset" "mower" none =
      some (.dispatched Peer.addr (.execute factoryResetPath none)) := by
    rw [handleExecutePath, if_neg (by decide), resolved]
    rfl
  exact ⟨executed, fun intercepted => intercepted.noReset _ _ _ executed⟩

end Lwm2mServer.SpecialPaths
