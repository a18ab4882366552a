import Lwm2mServer.Coap
import Lwm2mServer.DevicePayload

/-! `parse_xml_str` of `ipso.rs`: the definition of an object is read from the
events of an XML reader, by a loop with one set of variables for the object and
one for the item at hand. The elements of both levels share names; what keeps
them apart is a flag for the `Resources` element. -/
namespace Lwm2mServer
open Library

/-! ## `to_snake_case` -/

/-- The letter tables of the standard library. -/
structure LetterCases where
  isUppercase : Char → Bool
  isLowercase : Char → Bool
  toLowercase : Char → List Char

def LetterCases.ascii : LetterCases := ⟨Char.isUpper, Char.isLower, fun c => [c.toLower]⟩

def snakeCaseFrom (letters : LetterCases) :
    List Char → (out : List Char) → (prevLower prevUpper : Bool) → List Char
  | [], out, _, _ => out
  | ch :: rest, out, prevLower, prevUpper =>
    if ch = ' ' ∨ ch = '-' then
      let out := if out ≠ [] ∧ out.getLast? ≠ some '_' then out ++ ['_'] else out
      snakeCaseFrom letters rest out false false
    else if letters.isUppercase ch then
      let nextLower := rest.head?.any letters.isLowercase
      let out := if prevLower || (prevUpper && nextLower) then out ++ ['_'] else out
      snakeCaseFrom letters rest (out ++ letters.toLowercase ch) false true
    else snakeCaseFrom letters rest (out ++ [ch]) (letters.isLowercase ch) false

def toSnakeCase (letters : LetterCases) (name : String) : String :=
  String.ofList (snakeCaseFrom letters name.toList [] false false)

private theorem snakeCaseFrom_plain {letters : LetterCases} {chars : List Char}
    (plain : ∀ c ∈ chars, c ≠ ' ' ∧ c ≠ '-' ∧ letters.isUppercase c = false)
    (out : List Char) (prevLower prevUpper : Bool) :
    snakeCaseFrom letters chars out prevLower prevUpper = out ++ chars := by
  induction chars generalizing out prevLower prevUpper with
  | nil => simp [snakeCaseFrom]
  | cons ch rest ih =>
    obtain ⟨space, hyphen, small⟩ := plain ch List.mem_cons_self
    rw [snakeCaseFrom, if_neg (by simp [space, hyphen]), if_neg (by simp [small]),
      ih fun c member => plain c (List.mem_cons_of_mem ch member)]
    simp

/-- A name that is in snake case already stays as it is. -/
theorem toSnakeCase_plain {letters : LetterCases} {name : String}
    (plain : ∀ c ∈ name.toList, c ≠ ' ' ∧ c ≠ '-' ∧ letters.isUppercase c = false) :
    toSnakeCase letters name = name := by
  rw [toSnakeCase, snakeCaseFrom_plain plain, List.nil_append, String.ofList_toList]

example : toSnakeCase .ascii "MeasureRFLink" = "measure_rf_link" := by decide
example : toSnakeCase .ascii "Available Power Sources" = "available_power_sources" := by decide

/-! ## `parse_xml_str` -/

/-- What `read_event` returns. A text is missing if it cannot be unescaped;
attributes are those that can be read. `markup` are comments, processing
instructions and declarations. -/
inductive XmlEvent where
  | start (tag : String) (attrs : List (String × String))
  | empty (tag : String) (attrs : List (String × String))
  | close (tag : String)
  | text (unescaped : Option String)
  | cData (text : String)
  | markup
  | error

def parseResourceType (text : String) : ResourceType :=
  match text with
  | "Integer" => .integer
  | "Float" => .float
  | "String" => .string
  | "Boolean" => .boolean
  | "Time" => .time
  | "Opaque" => .opaqueBytes
  | "Corelnk" | "CoreLink" => .coreLink
  | "Unsigned Integer" | "UnsignedInteger" => .unsignedInteger
  | _ => .integer

/-- The variables of the loop. -/
structure XmlState where
  objectId : Option UInt32 := none
  objectName : Option String := none
  objectUrn : Option String := none
  objectVersion : Option String := none
  resources : Table UInt32 ResourceDef := ∅
  curResId : Option UInt32 := none
  curResName : Option String := none
  curResType : Option ResourceType := none
  curResMultiple : Bool := false
  currentTag : String := ""
  inResources : Bool := false

namespace XmlState

/-- A start tag, also of an empty element. -/
def opened (s : XmlState) (tag : String) (attrs : List (String × String)) : XmlState :=
  if tag = "Item" then
    { s with
      curResId := attrs.foldl (fun id attr => if attr.1 = "ID" then parseU32 attr.2 else id) s.curResId
      curResName := none
      curResType := none
      curResMultiple := false
      currentTag := tag }
  else if tag = "Resources" then { s with inResources := true, currentTag := tag }
  else { s with currentTag := tag }

def closed (letters : LetterCases) (s : XmlState) (tag : String) : XmlState :=
  if tag = "Item" then
    let resources := match s.curResId, s.curResName with
      | some id, some name => s.resources.insert id
          ⟨toSnakeCase letters name, s.curResType.getD .integer, s.curResMultiple⟩
      | _, _ => s.resources
    { s with resources, curResId := none, curResName := none, curResType := none, currentTag := "" }
  else if tag = "Resources" then { s with inResources := false, currentTag := "" }
  else { s with currentTag := "" }

def readText (s : XmlState) (text : String) : XmlState :=
  if s.currentTag = "ObjectID" ∧ s.inResources = false then { s with objectId := parseU32 text }
  else if s.currentTag = "Name" ∧ s.inResources = false ∧ s.objectName = none then
    { s with objectName := some text }
  else if s.currentTag = "ObjectURN" then { s with objectUrn := some text }
  else if s.currentTag = "ObjectVersion" ∧ s.inResources = false then
    { s with objectVersion := some text }
  else if s.currentTag = "Name" ∧ s.inResources = true then { s with curResName := some text }
  else if s.currentTag = "Type" then { s with curResType := some (parseResourceType text) }
  else if s.currentTag = "MultipleInstances" ∧ s.inResources = true then
    { s with curResMultiple := text = "Multiple" }
  else s

/-- One turn of the loop, `none` if the reader fails. -/
def step (letters : LetterCases) (s : XmlState) : XmlEvent → Option XmlState
  | .start tag attrs | .empty tag attrs => some (s.opened tag attrs)
  | .close tag => some (s.closed letters tag)
  | .text (some text) => some (s.readText text)
  | .text none | .cData _ | .markup => some s
  | .error => none

def run (letters : LetterCases) (s : XmlState) (events : List XmlEvent) : Option XmlState :=
  events.foldlM (step letters) s

end XmlState

/-- The result for the events of a document up to its end. -/
def parseXmlStr (letters : LetterCases) (events : List XmlEvent) :
    Option (UInt32 × String × ObjectDef) := do
  let s ← XmlState.run letters {} events
  let id ← s.objectId
  let name ← s.objectName
  return (id, s.objectVersion.getD "",
    ⟨toSnakeCase letters name, s.objectUrn.getD "", s.resources⟩)

namespace ObjectDefinitions

/-! ## Descriptions and their documents -/

/-- What a document says of a resource; `type` and `multiple` are the texts of
their elements. -/
structure ItemDescription where
  id : UInt32
  name : String
  named : name ≠ ""
  type : Option String
  multiple : Option String

structure ObjectDescription where
  id : UInt32
  name : String
  named : name ≠ ""
  urn : Option String
  version : Option String
  items : List ItemDescription
  distinct : (items.map ItemDescription.id).Nodup

/-- The resource an item describes, whatever stands around it. -/
def ItemDescription.definition (letters : LetterCases) (item : ItemDescription) : ResourceDef where
  name := toSnakeCase letters item.name
  resourceType := (item.type.map parseResourceType).getD .integer
  multipleInstances := item.multiple = some "Multiple"

/-- The name of an element that no field is read from. -/
def Other (tag : String) : Prop :=
  tag ∉ ["Item", "Resources", "ObjectID", "Name", "ObjectURN", "ObjectVersion", "Type",
    "MultipleInstances"]

def element (tag : String) (attrs : List (String × String)) (content : List XmlEvent) :
    List XmlEvent :=
  .start tag attrs :: content ++ [.close tag]

/-- Elements of other names with any content of such, and markup. Text stands
only `inside` an element: the reader drops blanks between elements. -/
inductive Others : (inside : Bool) → List XmlEvent → Prop where
  | nil : Others inside []
  | markup (rest : Others inside events) : Others inside (.markup :: events)
  | cData (rest : Others true events) : Others true (.cData text :: events)
  | text (rest : Others true events) : Others true (.text unescaped :: events)
  | empty (other : Other tag) (rest : Others inside events) :
      Others inside (.empty tag attrs :: events)
  | element (other : Other tag) (content : Others true body) (rest : Others inside events) :
      Others inside (element tag attrs body ++ events)

/-- Comments may stand next to a text. -/
def Markup (events : List XmlEvent) : Prop := ∀ event ∈ events, event = .markup

/-- An element that holds a text. No event comes for an empty one. -/
inductive Field (tag : String) : (text : String) → List XmlEvent → Prop where
  | text (nonempty : text ≠ "") (left : Markup before) (right : Markup after) :
      Field tag text (element tag attrs (before ++ .text (some text) :: after))
  | blank (comments : Markup body) : Field tag "" (element tag attrs body)
  | empty : Field tag "" [.empty tag attrs]

/-- The children of an element: fields in the order given, among others. -/
inductive Children : List (String × String) → List XmlEvent → Prop where
  | nil : Children [] []
  | others (gap : Others false before) (rest : Children fields events) :
      Children fields (before ++ events)
  | field (head : Field tag text first) (rest : Children fields events) :
      Children ((tag, text) :: fields) (first ++ events)

inductive ItemRendered (item : ItemDescription) : List XmlEvent → Prop where
  | mk (unique : (attrs.map Prod.fst).Nodup) (id : (attrs.lookup "ID").bind parseU32 = some item.id)
      (children : Children fields body) (once : (fields.map Prod.fst).Nodup)
      (tags : ∀ field ∈ fields, field.1 ∈ ["Name", "Type", "MultipleInstances"])
      (name : fields.lookup "Name" = some item.name) (type : fields.lookup "Type" = item.type)
      (multiple : fields.lookup "MultipleInstances" = item.multiple) :
      ItemRendered item (element "Item" attrs body)

inductive ItemsRendered : List ItemDescription → List XmlEvent → Prop where
  | nil (gap : Others false events) : ItemsRendered [] events
  | cons (gap : Others false before) (head : ItemRendered item first)
      (rest : ItemsRendered items events) : ItemsRendered (item :: items) (before ++ first ++ events)

inductive ResourcesRendered : List ItemDescription → List XmlEvent → Prop where
  | element (content : ItemsRendered items body) :
      ResourcesRendered items (element "Resources" attrs body)
  | empty : ResourcesRendered [] [.empty "Resources" attrs]

/-- The children of `Object`. Elements of an item's field names may stand
among them, before and after the resources. -/
inductive ObjectRendered (object : ObjectDescription) : List XmlEvent → Prop where
  | mk (header : Children fields before) (once : (fields.map Prod.fst).Nodup)
      (tags : ∀ field ∈ fields, field.1 ∈
        ["ObjectID", "Name", "ObjectURN", "ObjectVersion", "Type", "MultipleInstances"])
      (id : (fields.lookup "ObjectID").bind parseU32 = some object.id)
      (name : fields.lookup "Name" = some object.name)
      (urn : fields.lookup "ObjectURN" = object.urn)
      (version : fields.lookup "ObjectVersion" = object.version)
      (resources : ResourcesRendered object.items body)
      (trailer : Children trailing after)
      (trailingTags : ∀ field ∈ trailing, field.1 ∈ ["Type", "MultipleInstances"]) :
      ObjectRendered object (before ++ body ++ after)

inductive DocumentRendered (object : ObjectDescription) : List XmlEvent → Prop where
  | mk (prologue : Others false first) (gap : Others false before)
      (content : ObjectRendered object body) (gap' : Others false after)
      (epilogue : Others false last) :
      DocumentRendered object
        (first ++ element "LWM2M" attrs (before ++ element "Object" objectAttrs body ++ after) ++ last)

/-! ### The plain document of a description -/

def renderField (field : String × String) : List XmlEvent :=
  element field.1 [] (if field.2 = "" then [] else [.text (some field.2)])

def ItemDescription.fields (item : ItemDescription) : List (String × String) :=
  ("Name", item.name) :: (item.multiple.toList.map (Prod.mk "MultipleInstances") ++
    item.type.toList.map (Prod.mk "Type"))

def renderItem (item : ItemDescription) : List XmlEvent :=
  element "Item" [("ID", String.ofList (Nat.toDigits 10 item.id.toNat))]
    (item.fields.flatMap renderField)

def ObjectDescription.fields (object : ObjectDescription) : List (String × String) :=
  ("Name", object.name) :: ("ObjectID", String.ofList (Nat.toDigits 10 object.id.toNat)) ::
    (object.urn.toList.map (Prod.mk "ObjectURN") ++
      object.version.toList.map (Prod.mk "ObjectVersion"))

/-- Without other elements, and with the fields in the order of the schema. -/
def renderDocument (object : ObjectDescription) : List XmlEvent :=
  let resources := element "Resources" [] (object.items.flatMap renderItem)
  let content := element "Object" [("ObjectType", "MODefinition")]
    (object.fields.flatMap renderField ++ resources)
  .markup :: element "LWM2M" [] content

private theorem renderFields_children (fields : List (String × String)) :
    Children fields (fields.flatMap renderField) := by
  induction fields with
  | nil => exact .nil
  | cons field rest ih =>
    obtain ⟨tag, text⟩ := field
    have none : Markup [] := fun _ member => absurd member List.not_mem_nil
    refine .field ?_ ih
    by_cases blank : text = ""
    · subst text
      exact .blank none
    · rw [renderField, if_neg blank]
      exact .text blank none none

private theorem renderItem_rendered (item : ItemDescription) :
    ItemRendered item (renderItem item) := by
  refine .mk (by simp) ?_ (renderFields_children item.fields) ?_ ?_ rfl ?_ ?_
  · rw [List.lookup_cons_self, Option.bind_some, parseU32_toDigits]
  all_goals
    unfold ItemDescription.fields
    cases item.type <;> cases item.multiple <;> simp [List.lookup_cons]

private theorem renderItems_rendered (items : List ItemDescription) :
    ItemsRendered items (items.flatMap renderItem) := by
  induction items with
  | nil => exact .nil .nil
  | cons item rest ih =>
    rw [List.flatMap_cons, ← List.nil_append (renderItem item)]
    exact .cons .nil (renderItem_rendered item) ih

private theorem renderObject_rendered (object : ObjectDescription) :
    ObjectRendered object (object.fields.flatMap renderField ++
      element "Resources" [] (object.items.flatMap renderItem)) := by
  rw [← List.append_nil (_ ++ _)]
  refine .mk (renderFields_children object.fields) ?_ ?_ ?_ rfl ?_ ?_
    (.element (renderItems_rendered object.items)) .nil (by simp)
  case refine_3 =>
    show (some _).bind parseU32 = _
    rw [Option.bind_some, parseU32_toDigits]
  all_goals
    unfold ObjectDescription.fields
    cases object.urn <;> cases object.version <;> simp [List.lookup_cons]

/-- Every description has a document. -/
theorem renderDocument_rendered (object : ObjectDescription) :
    DocumentRendered object (renderDocument object) := by
  have document : DocumentRendered object ([.markup] ++ element "LWM2M" [] ([] ++ element "Object"
      [("ObjectType", "MODefinition")] (object.fields.flatMap renderField ++
        element "Resources" [] (object.items.flatMap renderItem)) ++ []) ++ []) :=
    .mk (.markup .nil) .nil (renderObject_rendered object) .nil .nil
  rw [List.append_nil, List.append_nil, List.nil_append] at document
  exact document

variable {letters : LetterCases} {s s' : XmlState} {events rest : List XmlEvent}

/-! ## What one element does -/

open XmlState (run)

private theorem run_cons {event : XmlEvent} (head : s.step letters event = some s') :
    run letters s (event :: rest) = run letters s' rest := by
  rw [run, List.foldlM_cons, head]
  rfl

private theorem run_append (head : run letters s events = some s') :
    run letters s (events ++ rest) = run letters s' rest := by
  rw [run, List.foldlM_append, ← run, head]
  rfl

private theorem run_element {tag : String} {attrs : List (String × String)}
    (content : run letters (s.opened tag attrs) events = some s') :
    run letters s (element tag attrs events) = some (s'.closed letters tag) := by
  rw [element, List.cons_append, run_cons rfl, run_append content]
  rfl

def withTag (s : XmlState) (tag : String) : XmlState := { s with currentTag := tag }

private theorem opened_plain {tag : String} (item : tag ≠ "Item") (resources : tag ≠ "Resources")
    (attrs : List (String × String)) : s.opened tag attrs = withTag s tag := by
  rw [XmlState.opened, if_neg item, if_neg resources, withTag]

private theorem run_plain {tag : String} {attrs : List (String × String)} (item : tag ≠ "Item")
    (resources : tag ≠ "Resources") (content : run letters (withTag s tag) events = some s') :
    run letters s (element tag attrs events) = some (withTag s' "") := by
  rw [← opened_plain item resources attrs] at content
  rw [run_element content, XmlState.closed, if_neg item, if_neg resources, withTag]

private theorem run_empty {tag : String} {attrs : List (String × String)} (item : tag ≠ "Item")
    (resources : tag ≠ "Resources") :
    run letters s (.empty tag attrs :: events) = run letters (withTag s tag) events := by
  have opens : s.step letters (.empty tag attrs) = some (s.opened tag attrs) := rfl
  rw [run_cons opens, opened_plain item resources]

private theorem Other.ne {tag : String} (other : Other tag) : tag ≠ "Item" ∧ tag ≠ "Resources" := by
  simp only [Other, List.mem_cons, not_or] at other
  exact ⟨other.1, other.2.1⟩

private theorem readText_other (other : Other s.currentTag) (text : String) :
    s.readText text = s := by
  simp only [Other, List.mem_cons, not_or] at other
  simp [XmlState.readText, other]

/-- Elements of other names change no variable but the tag, and text among
them is read under one of these names, or under none. -/
theorem Others.run_eq {inside : Bool} (others : Others inside events) (letters : LetterCases)
    (s : XmlState) (current : inside = true → Other s.currentTag) :
    ∃ tag, run letters s events = some (withTag s tag) ∧ (inside = true → Other tag) := by
  induction others generalizing s with
  | nil => exact ⟨s.currentTag, rfl, current⟩
  | markup _ ih | cData _ ih => exact ih s current
  | text tail ih =>
    rename_i unescaped
    have same : s.step letters (.text unescaped) = some s := by
      cases unescaped with
      | none => rfl
      | some text => exact congrArg some (readText_other (current rfl) text)
    rw [run_cons same]
    exact ih s current
  | empty other _ ih =>
    obtain ⟨tag, reads, plain⟩ := ih (withTag s _) fun _ => other
    rw [run_empty other.ne.1 other.ne.2]
    exact ⟨tag, reads, plain⟩
  | element other _ _ content ih =>
    obtain ⟨_, inside, -⟩ := content (withTag s _) fun _ => other
    obtain ⟨tag, reads, plain⟩ := ih (withTag s "") fun _ => by simp [Other, withTag]
    rw [run_append (run_plain other.ne.1 other.ne.2 inside)]
    exact ⟨tag, reads, plain⟩

private theorem Markup.run_eq (markup : Markup events) (s : XmlState) :
    run letters s events = some s := by
  induction events with
  | nil => rfl
  | cons event rest ih =>
    obtain rfl := markup event List.mem_cons_self
    rw [run_cons rfl]
    exact ih fun event member => markup event (List.mem_cons_of_mem _ member)

/-- What a field leaves behind, up to the tag. -/
def readField (s : XmlState) (field : String × String) : XmlState :=
  if field.2 = "" then withTag s field.1 else (withTag s field.1).readText field.2

theorem Field.run_eq {tag text : String} (element : Field tag text events)
    (item : tag ≠ "Item") (resources : tag ≠ "Resources") (letters : LetterCases) (s : XmlState) :
    ∃ last, run letters s events = some (withTag (readField s (tag, text)) last) := by
  cases element with
  | text nonempty left right =>
    refine ⟨"", run_plain item resources ?_⟩
    rw [run_append (left.run_eq _), run_cons rfl, right.run_eq, readField, if_neg nonempty]
  | blank comments =>
    refine ⟨"", run_plain item resources ?_⟩
    rw [comments.run_eq, readField, if_pos rfl]
  | empty =>
    refine ⟨tag, ?_⟩
    rw [run_empty item resources, readField, if_pos rfl]
    rfl

def readFields (s : XmlState) (fields : List (String × String)) : XmlState :=
  fields.foldl readField s

private theorem withTag_readFields (s : XmlState) (tag last : String)
    (fields : List (String × String)) :
    ∃ last', withTag (readFields (withTag s tag) fields) last = withTag (readFields s fields) last' := by
  cases fields with
  | nil => exact ⟨last, rfl⟩
  | cons field rest => exact ⟨last, rfl⟩

/-- Only the fields among the children count, in their order. -/
theorem Children.run_eq {fields : List (String × String)} (children : Children fields events)
    (tags : ∀ field ∈ fields, field.1 ≠ "Item" ∧ field.1 ≠ "Resources") (letters : LetterCases)
    (s : XmlState) : ∃ last, run letters s events = some (withTag (readFields s fields) last) := by
  induction children generalizing s with
  | nil => exact ⟨s.currentTag, rfl⟩
  | others gap _ ih =>
    obtain ⟨tag, skipped, -⟩ := gap.run_eq letters s (by simp)
    obtain ⟨last, reads⟩ := ih tags (withTag s tag)
    obtain ⟨last', same⟩ := withTag_readFields s tag last _
    exact ⟨last', by rw [run_append skipped, reads, same]⟩
  | field head _ ih =>
    obtain ⟨item, resources⟩ := tags _ List.mem_cons_self
    obtain ⟨tag, first⟩ := head.run_eq item resources letters s
    obtain ⟨last, reads⟩ := ih (fun field member => tags field (List.mem_cons_of_mem _ member))
      (withTag (readField s _) tag)
    obtain ⟨last', same⟩ := withTag_readFields (readField s _) tag last _
    exact ⟨last', by rw [run_append first, reads, same]; rfl⟩

/-! ## What the fields of one element leave behind -/

variable {γ : Type} {get : XmlState → γ} {key : String} {value : String → γ} {initial : γ}
  {inside : Bool} {fields : List (String × String)}

/-- Where a field goes; a blank one, or one out of place, goes nowhere. -/
inductive FieldRead (s : XmlState) (tag text : String) : XmlState → Prop where
  | objectId (nonempty : text ≠ "") (named : tag = "ObjectID") (outside : s.inResources = false) :
      FieldRead s tag text { withTag s tag with objectId := parseU32 text }
  | objectName (nonempty : text ≠ "") (named : tag = "Name") (outside : s.inResources = false)
      (fresh : s.objectName = none) :
      FieldRead s tag text { withTag s tag with objectName := some text }
  | objectUrn (nonempty : text ≠ "") (named : tag = "ObjectURN") :
      FieldRead s tag text { withTag s tag with objectUrn := some text }
  | objectVersion (nonempty : text ≠ "") (named : tag = "ObjectVersion")
      (outside : s.inResources = false) :
      FieldRead s tag text { withTag s tag with objectVersion := some text }
  | resName (nonempty : text ≠ "") (named : tag = "Name") (within : s.inResources = true) :
      FieldRead s tag text { withTag s tag with curResName := some text }
  | resType (nonempty : text ≠ "") (named : tag = "Type") :
      FieldRead s tag text { withTag s tag with curResType := some (parseResourceType text) }
  | resMultiple (nonempty : text ≠ "") (named : tag = "MultipleInstances")
      (within : s.inResources = true) :
      FieldRead s tag text { withTag s tag with curResMultiple := text = "Multiple" }
  | nowhere : FieldRead s tag text (withTag s tag)

theorem readField_read {field : String × String} (read : readField s field = s') :
    FieldRead s field.1 field.2 s' := by
  subst read
  rw [readField]
  split
  · exact .nowhere
  rename_i nonempty
  rw [XmlState.readText]
  split
  · exact .objectId nonempty (And.left ‹_›) (And.right ‹_›)
  split
  · exact .objectName nonempty (And.left ‹_›) (And.left (And.right ‹_›)) (And.right (And.right ‹_›))
  split
  · exact .objectUrn nonempty ‹_›
  split
  · exact .objectVersion nonempty (And.left ‹_›) (And.right ‹_›)
  split
  · exact .resName nonempty (And.left ‹_›) (And.right ‹_›)
  split
  · exact .resType nonempty ‹_›
  split
  · exact .resMultiple nonempty (And.left ‹_›) (And.right ‹_›)
  · exact .nowhere

private theorem readField_inResources (s : XmlState) (field : String × String) :
    (readField s field).inResources = s.inResources := by
  generalize read : readField s field = s'
  cases readField_read read <;> rfl

private theorem readFields_kept
    (kept : ∀ s, ∀ field ∈ fields, s.inResources = inside → get (readField s field) = get s)
    (level : s.inResources = inside) : get (readFields s fields) = get s := by
  induction fields generalizing s with
  | nil => rfl
  | cons field rest ih =>
    have after : get (readFields (readField s field) rest) = get (readField s field) :=
      ih (fun s field member => kept s field (List.mem_cons_of_mem _ member))
        ((readField_inResources s field).trans level)
    exact after.trans (kept s field List.mem_cons_self level)

/-- A variable written by the fields of one name only holds what the one such
field says, or what it held. -/
private theorem readFields_once
    (kept : ∀ s field, s.inResources = inside → field.1 ≠ key ∨ field.2 = "" →
      get (readField s field) = get s)
    (written : ∀ s text, s.inResources = inside → get s = initial → text ≠ "" →
      get (readField s (key, text)) = value text)
    (once : (fields.map Prod.fst).Nodup) (level : s.inResources = inside) (start : get s = initial) :
    get (readFields s fields) =
      (fields.lookup key).elim initial fun text => if text = "" then initial else value text := by
  induction fields generalizing s with
  | nil => exact start
  | cons field rest ih =>
    obtain ⟨tag, text⟩ := field
    rw [List.map_cons, List.nodup_cons] at once
    have level' := (readField_inResources s (tag, text)).trans level
    by_cases same : tag = key
    · subst same
      have after : get (readFields (readField s (tag, text)) rest) = get (readField s (tag, text)) := by
        refine readFields_kept (fun s field member level => kept s field level (.inl ?_)) level'
        have named : field.1 ∈ rest.map Prod.fst := List.mem_map_of_mem member
        exact fun again => once.1 (again ▸ named)
      rw [List.lookup_cons_self]
      refine after.trans ?_
      by_cases blank : text = ""
      · rw [kept s (tag, text) level (.inr blank), start, Option.elim_some, if_pos blank]
      · rw [written s text level start blank, Option.elim_some, if_neg blank]
    · rw [List.lookup_cons, beq_false_of_ne (Ne.symm same)]
      exact ih once.2 level' ((kept s (tag, text) level (.inl same)).trans start)

/-! ### The variables of the object -/

section Object
variable (once : (fields.map Prod.fst).Nodup) (outside : s.inResources = false)
include once outside

private theorem readFields_objectId (start : s.objectId = none) :
    (readFields s fields).objectId = (fields.lookup "ObjectID").elim none fun text =>
      if text = "" then none else parseU32 text := by
  refine readFields_once (fun s field level other => ?_) (fun s text level _ nonempty => ?_)
    once outside start
  · generalize read : readField s field = s'
    cases readField_read read with
    | objectId nonempty named => exact absurd named (other.resolve_right nonempty)
    | _ => rfl
  · simp [readField, withTag, XmlState.readText, nonempty, level]

private theorem readFields_objectName (start : s.objectName = none) :
    (readFields s fields).objectName = (fields.lookup "Name").elim none fun text =>
      if text = "" then none else some text := by
  refine readFields_once (fun s field level other => ?_) (fun s text level fresh nonempty => ?_)
    once outside start
  · generalize read : readField s field = s'
    cases readField_read read with
    | objectName nonempty named => exact absurd named (other.resolve_right nonempty)
    | _ => rfl
  · simp [readField, withTag, XmlState.readText, nonempty, level, fresh]

private theorem readFields_objectUrn (start : s.objectUrn = none) :
    (readFields s fields).objectUrn = (fields.lookup "ObjectURN").elim none fun text =>
      if text = "" then none else some text := by
  refine readFields_once (fun s field level other => ?_) (fun s text level _ nonempty => ?_)
    once outside start
  · generalize read : readField s field = s'
    cases readField_read read with
    | objectUrn nonempty named => exact absurd named (other.resolve_right nonempty)
    | _ => rfl
  · simp [readField, withTag, XmlState.readText, nonempty]

private theorem readFields_objectVersion (start : s.objectVersion = none) :
    (readFields s fields).objectVersion = (fields.lookup "ObjectVersion").elim none fun text =>
      if text = "" then none else some text := by
  refine readFields_once (fun s field level other => ?_) (fun s text level _ nonempty => ?_)
    once outside start
  · generalize read : readField s field = s'
    cases readField_read read with
    | objectVersion nonempty named => exact absurd named (other.resolve_right nonempty)
    | _ => rfl
  · simp [readField, withTag, XmlState.readText, nonempty, level]

end Object

/-! ### The variables of the item -/

section Item
variable (once : (fields.map Prod.fst).Nodup) (within : s.inResources = true)
include once within

private theorem readFields_curResName (start : s.curResName = none) :
    (readFields s fields).curResName = (fields.lookup "Name").elim none fun text =>
      if text = "" then none else some text := by
  refine readFields_once (fun s field level other => ?_) (fun s text level _ nonempty => ?_)
    once within start
  · generalize read : readField s field = s'
    cases readField_read read with
    | resName nonempty named => exact absurd named (other.resolve_right nonempty)
    | _ => rfl
  · simp [readField, withTag, XmlState.readText, nonempty, level]

private theorem readFields_curResType (start : s.curResType = none) :
    (readFields s fields).curResType = (fields.lookup "Type").elim none fun text =>
      if text = "" then none else some (parseResourceType text) := by
  refine readFields_once (fun s field level other => ?_) (fun s text level _ nonempty => ?_)
    once within start
  · generalize read : readField s field = s'
    cases readField_read read with
    | resType nonempty named => exact absurd named (other.resolve_right nonempty)
    | _ => rfl
  · simp [readField, withTag, XmlState.readText, nonempty]

private theorem readFields_curResMultiple (start : s.curResMultiple = false) :
    (readFields s fields).curResMultiple = (fields.lookup "MultipleInstances").elim false fun text =>
      if text = "" then false else decide (text = "Multiple") := by
  refine readFields_once (fun s field level other => ?_) (fun s text level _ nonempty => ?_)
    once within start
  · generalize read : readField s field = s'
    cases readField_read read with
    | resMultiple nonempty named => exact absurd named (other.resolve_right nonempty)
    | _ => rfl
  · simp [readField, withTag, XmlState.readText, nonempty, level]

end Item

/-! ### What stays -/

/-- The variables of the object that its result is built from. -/
def object (s : XmlState) : Option UInt32 × Option String × Option String × Option String :=
  (s.objectId, s.objectName, s.objectUrn, s.objectVersion)

private theorem readFields_inResources : (readFields s fields).inResources = s.inResources :=
  readFields_kept (fun s field _ _ => readField_inResources s field) rfl

private theorem readFields_curResId : (readFields s fields).curResId = s.curResId := by
  refine readFields_kept (fun s field _ _ => ?_) rfl
  generalize read : readField s field = s'
  cases readField_read read <;> rfl

private theorem readFields_resources : (readFields s fields).resources = s.resources := by
  refine readFields_kept (fun s field _ _ => ?_) rfl
  generalize read : readField s field = s'
  cases readField_read read <;> rfl

/-- The fields of an item do not reach the object, though it has a `Name` too. -/
private theorem readFields_object_item
    (tags : ∀ field ∈ fields, field.1 ∈ ["Name", "Type", "MultipleInstances"])
    (within : s.inResources = true) : object (readFields s fields) = object s := by
  refine readFields_kept (fun s field member level => ?_) within
  have tag := tags field member
  generalize read : readField s field = s'
  cases readField_read read with
  | objectId _ _ outside | objectName _ _ outside _ | objectVersion _ _ outside =>
    exact absurd (level.symm.trans outside) (by decide)
  | objectUrn _ named =>
    rw [named] at tag
    exact absurd tag (by decide)
  | _ => rfl

private theorem readFields_object_trailing
    (tags : ∀ field ∈ fields, field.1 ∈ ["Type", "MultipleInstances"]) :
    object (readFields s fields) = object s := by
  refine readFields_kept (fun s field member _ => ?_) rfl
  have tag := tags field member
  generalize read : readField s field = s'
  cases readField_read read with
  | objectId _ named | objectName _ named | objectVersion _ named | objectUrn _ named =>
    rw [named] at tag
    exact absurd tag (by decide)
  | _ => rfl

/-! ## Items -/

private theorem foldl_attrs (attrs : List (String × String)) (unique : (attrs.map Prod.fst).Nodup)
    (cur : Option UInt32) :
    attrs.foldl (fun id attr => if attr.1 = "ID" then parseU32 attr.2 else id) cur =
      (attrs.lookup "ID").elim cur parseU32 := by
  induction attrs generalizing cur with
  | nil => rfl
  | cons attr rest ih =>
    obtain ⟨key, value⟩ := attr
    rw [List.map_cons, List.nodup_cons] at unique
    rw [List.foldl_cons, ih unique.2]
    by_cases same : key = "ID"
    · subst same
      have missing : rest.lookup "ID" = none := by
        rw [List.lookup_eq_none_iff]
        rintro ⟨key, value⟩ member
        have named : key ∈ rest.map Prod.fst := List.mem_map_of_mem member
        exact bne_iff_ne.mpr fun again => unique.1 (again ▸ named)
      rw [missing, List.lookup_cons_self]
      simp
    · rw [List.lookup_cons, beq_false_of_ne (Ne.symm same), if_neg same]

private theorem fields_named {names : List String} (tags : ∀ field ∈ fields, field.1 ∈ names)
    (item : "Item" ∉ names) (resources : "Resources" ∉ names) :
    ∀ field ∈ fields, field.1 ≠ "Item" ∧ field.1 ≠ "Resources" := fun field member =>
  ⟨fun same => item (same ▸ tags field member), fun same => resources (same ▸ tags field member)⟩

/-- The variables of an item when its end is reached. -/
private theorem item_variables {item : ItemDescription} (once : (fields.map Prod.fst).Nodup)
    (within : s.inResources = true) (fresh : s.curResName = none ∧ s.curResType = none ∧
      s.curResMultiple = false)
    (name : fields.lookup "Name" = some item.name) (type : fields.lookup "Type" = item.type)
    (multiple : fields.lookup "MultipleInstances" = item.multiple) :
    (readFields s fields).curResName = some item.name ∧
      (readFields s fields).curResType.getD .integer = (item.type.map parseResourceType).getD .integer ∧
      (readFields s fields).curResMultiple = decide (item.multiple = some "Multiple") := by
  refine ⟨?_, ?_, ?_⟩
  · rw [readFields_curResName once within fresh.1, name, Option.elim_some, if_neg item.named]
  · rw [readFields_curResType once within fresh.2.1, type]
    cases item.type with
    | none => rfl
    | some text =>
      by_cases blank : text = ""
      · rw [blank]
        rfl
      · rw [Option.elim_some, if_neg blank]
        rfl
  · rw [readFields_curResMultiple once within fresh.2.2, multiple]
    cases item.multiple with
    | none => rfl
    | some text =>
      by_cases blank : text = ""
      · rw [blank]
        decide
      · simp [blank]

/-- An item adds its own resource, whatever the variables held before it. -/
theorem ItemRendered.run_eq {item : ItemDescription} (rendered : ItemRendered item events)
    (letters : LetterCases) (s : XmlState) (within : s.inResources = true) :
    ∃ s', run letters s events = some s' ∧ s'.inResources = true ∧ object s' = object s ∧
      s'.resources = s.resources.insert item.id (item.definition letters) := by
  cases rendered with
  | mk unique id children once tags name type multiple =>
    rename_i fields body attrs
    let start := s.opened "Item" attrs
    have startId : start.curResId = some item.id := by
      show attrs.foldl _ s.curResId = _
      rw [foldl_attrs attrs unique]
      cases found : attrs.lookup "ID" with
      | none => rw [found] at id; cases id
      | some text => rwa [found] at id
    obtain ⟨last, reads⟩ :=
      children.run_eq (fields_named tags (by decide) (by decide)) letters start
    have fresh : start.curResName = none ∧ start.curResType = none ∧ start.curResMultiple = false :=
      ⟨rfl, rfl, rfl⟩
    obtain ⟨readName, readType, readMultiple⟩ :=
      item_variables once (show start.inResources = true from within) fresh name type multiple
    refine ⟨(withTag (readFields start fields) last).closed letters "Item", run_element reads,
      ?_, ?_, ?_⟩
    · exact readFields_inResources.trans within
    · exact readFields_object_item tags within
    · show (match (readFields start fields).curResId, (readFields start fields).curResName with
        | some id, some name => (readFields start fields).resources.insert id
            (ResourceDef.mk (toSnakeCase letters name)
              ((readFields start fields).curResType.getD .integer)
              (readFields start fields).curResMultiple)
        | _, _ => (readFields start fields).resources) = _
      rw [readFields_curResId, startId, readName, readType, readMultiple, readFields_resources]
      rfl

/-- What the resources of a document add. -/
structure Added (letters : LetterCases) (items : List ItemDescription) (s s' : XmlState) : Prop where
  object : object s' = object s
  each : ∀ item ∈ items, s'.resources.lookup item.id = some (item.definition letters)
  nothingElse : ∀ id, id ∉ items.map ItemDescription.id →
    s'.resources.lookup id = s.resources.lookup id

theorem ItemsRendered.run_eq {items : List ItemDescription} (rendered : ItemsRendered items events)
    (distinct : (items.map ItemDescription.id).Nodup) (letters : LetterCases) (s : XmlState)
    (within : s.inResources = true) :
    ∃ s', run letters s events = some s' ∧ Added letters items s s' := by
  induction rendered generalizing s with
  | nil gap =>
    obtain ⟨tag, skipped, -⟩ := gap.run_eq letters s (by simp)
    exact ⟨withTag s tag, skipped, rfl, by simp, fun _ _ => rfl⟩
  | @cons before item element items events gap head _ ih =>
    rw [List.map_cons, List.nodup_cons] at distinct
    obtain ⟨tag, skipped, -⟩ := gap.run_eq letters s (by simp)
    obtain ⟨middle, first, within', sameObject, inserted⟩ :=
      head.run_eq letters (withTag s tag) within
    obtain ⟨s', reads, added⟩ := ih distinct.2 middle within'
    refine ⟨s', ?_, added.object.trans sameObject, ?_, ?_⟩
    · rw [List.append_assoc, run_append skipped, run_append first, reads]
    · rw [List.forall_mem_cons]
      refine ⟨?_, added.each⟩
      rw [added.nothingElse _ distinct.1, inserted, AList.lookup_insert]
    · intro id missing
      rw [List.map_cons, List.mem_cons, not_or] at missing
      rw [added.nothingElse id missing.2, inserted, AList.lookup_insert_ne missing.1]
      rfl

theorem ResourcesRendered.run_eq {items : List ItemDescription}
    (rendered : ResourcesRendered items events)
    (distinct : (items.map ItemDescription.id).Nodup) (letters : LetterCases) (s : XmlState) :
    ∃ s', run letters s events = some s' ∧ Added letters items s s' := by
  cases rendered with
  | element content =>
    obtain ⟨s', reads, added⟩ := content.run_eq distinct letters (s.opened "Resources" _) rfl
    exact ⟨s'.closed letters "Resources", run_element reads, added.object, added.each,
      added.nothingElse⟩
  | empty =>
    exact ⟨s.opened "Resources" _, rfl, rfl, by simp, fun _ _ => rfl⟩

/-! ## Documents -/

private theorem elim_nonempty {γ : Type} {value : String → Option γ} {text : Option String} {found : γ}
    (blank : value "" = none) (given : text.bind value = some found) :
    (text.elim none fun text => if text = "" then none else value text) = some found := by
  cases text with
  | none => cases given
  | some text =>
    rw [Option.elim_some, if_neg]
    · exact given
    · rintro rfl
      rw [Option.bind_some, blank] at given
      cases given

private theorem getD_nonempty (text : Option String) :
    (text.elim none fun text => if text = "" then none else some text).getD "" = text.getD "" := by
  cases text with
  | none => rfl
  | some text =>
    rw [Option.elim_some]
    split
    · exact Eq.symm ‹_›
    · rfl

/-- An element that no variable depends on, with others around it. -/
private theorem run_wrapped {before body after : List XmlEvent} {tag : String}
    {attrs : List (String × String)} (gap : Others false before) (gap' : Others false after)
    (item : tag ≠ "Item") (resources : tag ≠ "Resources")
    (content : run letters (withTag s tag) body = some s') :
    ∃ last, run letters s (before ++ element tag attrs body ++ after) = some (withTag s' last) := by
  obtain ⟨first, skipped, -⟩ := gap.run_eq letters s (by simp)
  obtain ⟨last, skipped', -⟩ := gap'.run_eq letters (withTag s' "") (by simp)
  have inside : run letters (withTag (withTag s first) tag) body = some s' := content
  refine ⟨last, ?_⟩
  rw [List.append_assoc, run_append skipped, run_append (run_plain item resources inside), skipped']
  rfl

/-- From fresh variables, the children of an object leave its own fields and
the resources of its items. -/
theorem ObjectRendered.run_eq {object : ObjectDescription} (rendered : ObjectRendered object events)
    (letters : LetterCases) (s : XmlState) (outside : s.inResources = false)
    (fresh : ObjectDefinitions.object s = (none, none, none, none)) :
    ∃ s', run letters s events = some s' ∧ s'.objectId = some object.id ∧
      s'.objectName = some object.name ∧ s'.objectUrn.getD "" = object.urn.getD "" ∧
      s'.objectVersion.getD "" = object.version.getD "" ∧
      (∀ item ∈ object.items, s'.resources.lookup item.id = some (item.definition letters)) ∧
      ∀ id, id ∉ object.items.map ItemDescription.id →
        s'.resources.lookup id = s.resources.lookup id := by
  simp only [ObjectDefinitions.object, Prod.mk.injEq] at fresh
  obtain ⟨freshId, freshName, freshUrn, freshVersion⟩ := fresh
  cases rendered with
  | mk header once tags id name urn version resources trailer trailingTags =>
    rename_i fields before body trailing after
    obtain ⟨tag, first⟩ := header.run_eq (fields_named tags (by decide) (by decide)) letters s
    obtain ⟨middle, second, added⟩ :=
      resources.run_eq object.distinct letters (withTag (readFields s fields) tag)
    obtain ⟨last, third⟩ :=
      trailer.run_eq (fields_named trailingTags (by decide) (by decide)) letters middle
    have kept : ObjectDefinitions.object (readFields middle trailing) =
        ObjectDefinitions.object (readFields s fields) :=
      (readFields_object_trailing trailingTags).trans added.object
    simp only [ObjectDefinitions.object, Prod.mk.injEq] at kept
    obtain ⟨sameId, sameName, sameUrn, sameVersion⟩ := kept
    have sameResources : (readFields middle trailing).resources = middle.resources :=
      readFields_resources
    refine ⟨withTag (readFields middle trailing) last, ?_, sameId.trans ?_, sameName.trans ?_, ?_, ?_,
      ?_, ?_⟩
    · rw [List.append_assoc, run_append first, run_append second, third]
    · rw [readFields_objectId once outside freshId]
      exact elim_nonempty (by decide) id
    · rw [readFields_objectName once outside freshName, name, Option.elim_some, if_neg object.named]
    · show (readFields middle trailing).objectUrn.getD "" = _
      rw [sameUrn, readFields_objectUrn once outside freshUrn, getD_nonempty, urn]
    · show (readFields middle trailing).objectVersion.getD "" = _
      rw [sameVersion, readFields_objectVersion once outside freshVersion, getD_nonempty, version]
    · intro item member
      show (readFields middle trailing).resources.lookup item.id = _
      rw [sameResources, added.each item member]
    · intro id missing
      show (readFields middle trailing).resources.lookup id = _
      rw [sameResources, added.nothingElse id missing]
      exact congrArg (AList.lookup id) readFields_resources

/-- The definition read from a document has the description's own id, version,
name and URN, and for every item a resource made of that item alone. -/
theorem parseXmlStr_rendered (letters : LetterCases) {object : ObjectDescription}
    {events : List XmlEvent} (rendered : DocumentRendered object events) :
    ∃ resources : Table UInt32 ResourceDef,
      parseXmlStr letters events = some (object.id, object.version.getD "",
        ⟨toSnakeCase letters object.name, object.urn.getD "", resources⟩) ∧
      (∀ item ∈ object.items, resources.lookup item.id = some (item.definition letters)) ∧
      ∀ id, id ∉ object.items.map ItemDescription.id → resources.lookup id = none := by
  cases rendered with
  | mk prologue gap content gap' epilogue =>
    obtain ⟨s, read, id, name, urn, version, each, nothingElse⟩ :=
      content.run_eq letters (withTag (withTag {} "LWM2M") "Object") rfl rfl
    obtain ⟨_, outer⟩ := run_wrapped gap gap' (by decide) (by decide) read
    obtain ⟨_, document⟩ := run_wrapped prologue epilogue (by decide) (by decide) outer
    refine ⟨s.resources, ?_, each, nothingElse⟩
    rw [parseXmlStr, document]
    show (do
      let id ← s.objectId
      let name ← s.objectName
      return (id, s.objectVersion.getD "",
        ObjectDef.mk (toSnakeCase letters name) (s.objectUrn.getD "") s.resources)) = _
    rw [id, name, urn, version]
    rfl

/-- An execute resource without a type after a resource that has one. -/
def sgCommon : ObjectDescription where
  id := 28183
  name := "SG Common"
  named := by decide
  urn := some "urn:oma:lwm2m:x:28183:0.1"
  version := some "0.1"
  items := [⟨1, "Cell ID", by decide, some "Float", some "Multiple"⟩,
    ⟨33, "measure_rf_link", by decide, some "", none⟩]
  distinct := by decide

theorem parseXmlStr_rendered_sgCommon : ∃ resources : Table UInt32 ResourceDef,
    parseXmlStr .ascii (renderDocument sgCommon) = some (28183, "0.1",
      ⟨"sg_common", "urn:oma:lwm2m:x:28183:0.1", resources⟩) ∧
    resources.lookup 1 = some ⟨"cell_id", .float, true⟩ ∧
    resources.lookup 33 = some ⟨"measure_rf_link", .integer, false⟩ ∧
    resources.lookup 2 = none := by
  obtain ⟨resources, parsed, each, nothingElse⟩ :=
    parseXmlStr_rendered .ascii (renderDocument_rendered sgCommon)
  have name : toSnakeCase .ascii sgCommon.name = "sg_common" := by decide
  have cell : toSnakeCase .ascii "Cell ID" = "cell_id" := by decide
  have link : toSnakeCase .ascii "measure_rf_link" = "measure_rf_link" := by decide
  refine ⟨resources, parsed.trans ?_, ?_, ?_, nothingElse 2 (by decide)⟩
  · rw [name]
    rfl
  · refine (each _ List.mem_cons_self).trans ?_
    rw [ItemDescription.definition, cell]
    rfl
  · refine (each _ (List.mem_cons_of_mem _ List.mem_cons_self)).trans ?_
    rw [ItemDescription.definition, link]
    rfl

end ObjectDefinitions
end Lwm2mServer
