import Lwm2mServer.Commands
import Lwm2mServer.RegistryIndexes

/-! When the command socket answers. Of all that a request of any shape can
bring up, two things panic: the slice that cuts the id out of an include path,
for the one path in which prefix and suffix overlap, and the lookup of an
endpoint whose index entry has no device. -/
namespace Lwm2mServer.Commands
open Library DeviceRegistry

/-- An execute of the one include path without room for an id. -/
def WithoutId (req : Json) : Prop := opOf req = "execute" ∧ pathOf req = "includable_device/include"

/-- An index entry of the endpoint leads to a device. -/
def Leads (r : DeviceRegistry) (endpoint : String) : Prop :=
  ∀ id, r.byEndpoint.lookup endpoint = some id → (r.byId.lookup id).isSome

/-- The endpoints a request looks up, with the registry at that moment. -/
def lookups (view : RequestView) (req : Json) : List (DeviceRegistry × String) :=
  let named := (namedIn view.ipso (pathOf req)).isSome
  if opOf req = "read" then
    if pathOf req = "devices" then view.included.map fun endpoint => (view.states endpoint, endpoint)
    else []
  else if opOf req = "execute" ∧ approves (pathOf req) then []
  else if opOf req = "execute" ∧ (pathOf req = ResourceNames.factoryResetName ∨ named) ∨
      opOf req = "write" ∧ (pathOf req = Ipc.packagePath ∨ named) then [(view.devices, deviceOf req)]
  else []

def Answerable (view : RequestView) (req : Json) : Prop :=
  ¬ WithoutId req ∧ ∀ lookup ∈ lookups view req, Leads lookup.1 lookup.2

variable {view : RequestView} {views : Nat → RequestView} {formats : Formats} {req : Json}
  {path device endpoint : String} {r : DeviceRegistry} {requests : List Json} {payload : Json}

/-! ## The slice -/

/-- Prefix and suffix overlap in one character, if at all. -/
private theorem overlap {middle : List Char} (front : middle <:+ includePrefix.toList)
    (back : middle <+: includeSuffix.toList) : middle = [] ∨ middle = ['/'] := by
  have short : middle.length ≤ 8 := back.length_le
  have cut : middle = includeSuffix.toList.take middle.length := (List.prefix_iff_eq_take.mp back)
  have each : ∀ n ≤ 8, includeSuffix.toList.take n <:+ includePrefix.toList →
      includeSuffix.toList.take n = [] ∨ includeSuffix.toList.take n = ['/'] := by decide
  rw [cut]
  exact each _ short (cut ▸ front)

/-- What stands between prefix and suffix is cut out, whatever it is. -/
private theorem slice_between (middle : List Char) :
    let path := includePrefix.toList ++ (middle ++ includeSuffix.toList)
    sliceBytes (byteLen includePrefix.toList) (byteLen path - byteLen includeSuffix.toList) path =
      some middle := by
  have stop : byteLen (includePrefix.toList ++ (middle ++ includeSuffix.toList)) -
      byteLen includeSuffix.toList = byteLen includePrefix.toList + byteLen middle := by
    rw [byteLen_append, byteLen_append]
    omega
  dsimp only
  rw [stop, sliceBytes_append, splitAtByte_append]
  rfl

theorem executeInclude_isSome_iff (shaped : approves path) :
    (executeInclude view path).isSome ↔ path ≠ "includable_device/include" := by
  obtain ⟨⟨rest, text⟩, ⟨front, text'⟩⟩ := of_decide_eq_true shaped
  have between (middle : List Char)
      (whole : path.toList = includePrefix.toList ++ (middle ++ includeSuffix.toList)) :
      (executeInclude view path).isSome ↔ path ≠ "includable_device/include" := by
    have cut := slice_between middle
    rw [← whole] at cut
    rw [executeInclude, cut]
    refine iff_of_true rfl ?_
    rintro rfl
    have length := congrArg List.length whole
    simp [includePrefix, includeSuffix] at length
  rcases List.append_eq_append_iff.mp (text.trans text'.symm) with
    ⟨middle, -, rfl⟩ | ⟨shared, front_, back⟩
  · exact between middle text.symm
  · rcases overlap ⟨front, front_.symm⟩ ⟨rest, back.symm⟩ with rfl | rfl
    · rw [List.nil_append] at back
      exact between [] (by rw [← text, ← back]; rfl)
    · -- one slash is the end of the prefix and the start of the suffix
      have rest_ : rest = "include".toList := (List.cons.inj back).2.symm
      have same : path = "includable_device/include" := by
        refine String.toList_injective ?_
        rw [← text, rest_]
        decide
      have cut : sliceBytes (byteLen includePrefix.toList)
          (byteLen path.toList - byteLen includeSuffix.toList) path.toList = none := by
        rw [same]
        decide
      rw [executeInclude, cut]
      exact iff_of_false (by simp) (not_not.mpr same)

/-! ## The lookups -/

private theorem addrAndId_isSome_iff : (r.addrAndIdByEndpoint endpoint).isSome ↔ Leads r endpoint := by
  unfold addrAndIdByEndpoint Leads
  cases r.byEndpoint.lookup endpoint <;> simp

private theorem deviceState_isSome_iff : (r.deviceStateByEndpoint endpoint).isSome ↔ Leads r endpoint := by
  unfold deviceStateByEndpoint Leads
  cases r.byEndpoint.lookup endpoint <;> simp

private theorem resolve_isSome_iff :
    (resolve view path device).isSome ↔ ((namedIn view.ipso path).isSome → Leads view.devices device) := by
  rw [resolve, ← addrAndId_isSome_iff]
  cases namedIn view.ipso path with
  | none => simp
  | some named => cases view.devices.addrAndIdByEndpoint device <;> simp

private theorem handleExclusion_isSome_iff :
    (handleExclusion view device).isSome ↔ Leads view.devices device := by
  rw [← addrAndId_isSome_iff, handleExclusion]
  cases view.devices.addrAndIdByEndpoint device <;> simp

private theorem handleFotaWrite_isSome_iff :
    (handleFotaWrite formats view device payload).isSome ↔ Leads view.devices device := by
  rw [← addrAndId_isSome_iff, handleFotaWrite]
  cases view.devices.addrAndIdByEndpoint device <;> simp

private theorem handleExecutePath_isSome_iff :
    (handleExecutePath view path device payload).isSome ↔
      (path = ResourceNames.factoryResetName ∨ (namedIn view.ipso path).isSome →
        Leads view.devices device) := by
  unfold handleExecutePath
  split
  · rename_i same
    rw [handleExclusion_isSome_iff]
    simp [same]
  · rename_i other
    rw [Option.isSome_map, resolve_isSome_iff]
    simp [other]

private theorem handleWritePath_isSome_iff :
    (handleWritePath formats view path device payload).isSome ↔
      (path = Ipc.packagePath ∨ (namedIn view.ipso path).isSome → Leads view.devices device) := by
  unfold handleWritePath
  split
  · rename_i same
    rw [handleFotaWrite_isSome_iff]
    simp [same]
  · rename_i other
    rw [Option.isSome_map, resolve_isSome_iff]
    simp [other]

private theorem includedStates_isSome_iff (endpoints : List String) :
    (includedStates view endpoints).isSome ↔
      ∀ endpoint ∈ endpoints, Leads (view.states endpoint) endpoint := by
  induction endpoints with
  | nil => simp [includedStates]
  | cons endpoint rest ih =>
    rw [List.forall_mem_cons, ← ih, ← deviceState_isSome_iff, includedStates]
    cases (view.states endpoint).deviceStateByEndpoint endpoint with
    | none => simp
    | some found => cases includedStates view rest <;> simp

/-! ## Requests -/

private theorem forall_mem_ite {α : Type} {c : Prop} [Decidable c] {a : α} {holds : α → Prop} :
    (∀ x ∈ if c then [a] else [], holds x) ↔ (c → holds a) := by
  split <;> simp_all

private theorem approves_withoutId (req : Json) (without : WithoutId req) : approves (pathOf req) := by
  rw [without.2]
  decide

/-- **When a request is answered.** -/
theorem handleRequest_isSome_iff :
    (handleRequest formats view req).isSome ↔ Answerable view req := by
  unfold handleRequest Answerable lookups
  dsimp only
  by_cases read : opOf req = "read"
  · have with_ : ¬ WithoutId req := fun without => absurd (read.symm.trans without.1) (by decide)
    rw [if_pos read, if_pos read, and_iff_right with_]
    split
    · rw [readDevices, Option.isSome_map, includedStates_isSome_iff, List.forall_mem_map]
    · simp
  rw [if_neg read, if_neg read]
  by_cases inclusion : opOf req = "execute" ∧ approves (pathOf req)
  · rw [if_pos inclusion, if_pos inclusion, executeInclude_isSome_iff inclusion.2]
    simp [WithoutId, inclusion.1]
  rw [if_neg inclusion, if_neg inclusion, forall_mem_ite, and_iff_right fun without =>
    inclusion ⟨without.1, approves_withoutId req without⟩]
  have unnamed : namedIn view.ipso "" = none := rfl
  by_cases execute : opOf req = "execute"
  · have other : opOf req ≠ "write" := by rw [execute]; decide
    by_cases empty : pathOf req = ""
    · simp [execute, empty, unnamed, ResourceNames.factoryResetName]
    · rw [if_pos ⟨execute, empty⟩, handleExecutePath_isSome_iff]
      simp [execute]
  · rw [if_neg fun both => execute both.1]
    by_cases write : opOf req = "write"
    · by_cases empty : pathOf req = ""
      · simp [write, empty, unnamed, Ipc.packagePath]
      · rw [if_pos ⟨write, empty⟩, handleWritePath_isSome_iff]
        simp [write]
    · rw [if_neg fun both => write both.1]
      simp [execute, write]

private theorem responses_isSome_iff (n : Nat) (requests : List Json) :
    (∃ answers, responses formats views n requests = some answers ∧ answers.length = requests.length) ↔
      ∀ i req, requests[i]? = some req → Answerable (views (n + i)) req := by
  induction requests generalizing n with
  | nil => simp [responses]
  | cons req rest ih =>
    have parts : (∃ answers, responses formats views n (req :: rest) = some answers ∧
          answers.length = (req :: rest).length) ↔
        (handleRequest formats (views n) req).isSome ∧
          ∃ answers, responses formats views (n + 1) rest = some answers ∧
            answers.length = rest.length := by
      rw [responses]
      cases handleRequest formats (views n) req with
      | none => simp
      | some response => cases responses formats views (n + 1) rest <;> simp
    rw [parts, ih, handleRequest_isSome_iff]
    constructor
    · rintro ⟨first, later⟩ i other found
      cases i with
      | zero =>
        cases found
        exact first
      | succ i =>
        rw [Nat.add_comm i, ← Nat.add_assoc]
        exact later i other found
    · intro each
      refine ⟨each 0 req rfl, fun i other found => ?_⟩
      rw [Nat.add_assoc, Nat.add_comm 1]
      exact each (i + 1) other found

/-- **A line is answered with one response for each request exactly if no request
is an inclusion without an id and every endpoint looked up leads to a device.** -/
theorem dispatch_answers_iff {parse : String → Option (List Json)} {line : String}
    (parsed : parse line = some requests) :
    (∃ answers, dispatch parse formats views line = some answers ∧ answers.length = requests.length) ↔
      ∀ i req, requests[i]? = some req → Answerable (views i) req := by
  have each := @responses_isSome_iff views formats 0 requests
  simp only [Nat.zero_add] at each
  rw [← each, dispatch, parsed]
  simp

/-- Where the indexes of the registry are in order, only the inclusion without an
id is left. -/
theorem answerable_iff_of_resolve
    (sound : ∀ lookup ∈ lookups view req, RegistryIndexes.IndexesResolve lookup.1) :
    Answerable view req ↔ ¬ WithoutId req := by
  refine and_iff_left fun lookup member id found => ?_
  obtain ⟨dev, held, -⟩ := (sound lookup member).byEndpoint lookup.2 id found
  rw [held]
  rfl

private def idleView : RequestView where
  included := []
  states _ := .new
  bootstrap := .new 1 none
  ipso := ⟨∅⟩
  devices := .new
  unixTs := 1700000000
  sent := true
  opId := 1
  fotaLocked := false
  firstAck := false
  answer := .timeout

private def rawFormats : Formats := ⟨fun _ => none, fun _ => ""⟩

private def execute (path : String) : Json :=
  .object [("op", .str "execute"), ("entity", .object [("path", .str path)])]

theorem dispatch_answers_iff_unknown :
    ∃ answers, dispatch (fun _ => some [execute "includable_device/7/include"]) rawFormats
      (fun _ => idleView) "" = some answers ∧ answers.length = 1 := by
  refine (@dispatch_answers_iff (fun _ => idleView) rawFormats [execute "includable_device/7/include"]
    (fun _ => some [execute "includable_device/7/include"]) "" rfl).mpr fun i req found => ?_
  cases List.mem_singleton.mp (List.mem_of_getElem? found)
  have none_ : lookups idleView (execute "includable_device/7/include") = [] := rfl
  exact ⟨fun without => absurd without.2 (by decide), by simp [none_]⟩

/-- The path without an id ends the connection. -/
theorem inclusion_without_id_panics :
    dispatch (fun _ => some [execute "includable_device/include"]) rawFormats (fun _ => idleView) "" =
      none := by
  have without : WithoutId (execute "includable_device/include") := ⟨by decide, by decide⟩
  have panics : handleRequest rawFormats idleView (execute "includable_device/include") = none := by
    rw [← Option.not_isSome_iff_eq_none, handleRequest_isSome_iff]
    exact fun answerable => answerable.1 without
  simp only [dispatch, responses, panics, Option.bind_eq_bind, Option.bind_none, Option.map_none]

end Lwm2mServer.Commands
