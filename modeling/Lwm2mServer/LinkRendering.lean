import Mathlib.Data.List.DropRight
import Lwm2mServer.LinkFormat

/-! Link-format bodies as devices write them, and that `parse_link_format`
reads them back: the paths in order, and for each object id the version of the
last link that states one. -/
namespace Lwm2mServer.LinkFormat
open Library

/-- An attribute that is not the version. -/
structure Attribute where
  text : List Char
  clean : ∀ c ∈ text, c ≠ ',' ∧ c ≠ ';' ∧ c ≠ '>'
  other : ¬"ver=".toList <+: text

structure Version where
  text : List Char
  nonempty : text ≠ []
  clean : ∀ c ∈ text, isWhitespace c = false ∧ c ≠ ';' ∧ c ≠ '>' ∧ c ≠ ','

/-- A link with its path, a version or none, and the attributes on both sides
of it; `left` and `right` stand around it in the body. -/
structure Link where
  path : List Char
  before : List Attribute
  version : Option Version
  after : List Attribute
  left : List Char
  right : List Char
  clean : ∀ c ∈ path, c ≠ '<' ∧ c ≠ '>' ∧ c ≠ ','
  relative : path.head? ≠ some '/'
  blank : ∀ c ∈ left ++ right, isWhitespace c = true

namespace Link

/-- The attributes as they are written. -/
def attributes (link : Link) : List (List Char) :=
  link.before.map (·.text) ++ (link.version.map fun v => "ver=".toList ++ v.text).toList ++
    link.after.map (·.text)

def render (link : Link) : List Char :=
  link.left ++ ("</".toList ++ link.path ++ '>' :: link.attributes.flatMap (';' :: ·)) ++ link.right

/-- The object id, if the first segment of the path is a number. -/
def objectId (link : Link) : Option UInt32 := parseU32 (String.ofList ((link.path.splitOn '/').headD []))

/-- The version the link states for an object id. -/
def states (id : UInt32) (link : Link) : Option String :=
  if link.objectId = some id then link.version.map fun v => String.ofList v.text else none

end Link

/-- A body. -/
def renderLinks (links : List Link) : String :=
  String.ofList (List.intercalate [','] (links.map (·.render)))

example : renderLinks [⟨['3'], [], some ⟨['1'], nofun, by simp [isWhitespace]⟩, [], [' '], [],
    by simp, by simp, by simp [isWhitespace]⟩] = " </3>;ver=1" := by decide +kernel

/-- The version of the last link that states one for the id. -/
def lastVersion (links : List Link) (id : UInt32) : Option String :=
  (links.filterMap (·.states id)).getLast?

variable {link : Link} {attr : List Char}

/-! ## Attributes -/

private theorem notMem_render {c : Char} (space : isWhitespace c = false) (path : c ∉ link.path)
    (bracket : c ∉ "</".toList ∧ c ≠ '>') (attributes : ∀ attr ∈ link.attributes, c ∉ ';' :: attr) :
    c ∉ link.render := by
  have outside (side : List Char) (part : ∀ d ∈ side, d ∈ link.left ++ link.right) : c ∉ side := by
    intro member
    rw [link.blank c (part c member)] at space
    cases space
  simp only [Link.render, List.mem_append, List.mem_cons, List.mem_flatMap, not_or, not_exists, not_and]
  refine ⟨⟨outside _ fun _ => List.mem_append_left _, ⟨bracket.1, path⟩, bracket.2, ?_⟩,
    outside _ fun _ => List.mem_append_right _⟩
  exact fun attr member => not_or.mp fun place => attributes attr member (List.mem_cons.mpr place)

/-- What an attribute as written is. -/
private theorem mem_attributes (member : attr ∈ link.attributes) :
    (∃ other : Attribute, attr = other.text) ∨ ∃ v ∈ link.version, attr = "ver=".toList ++ v.text := by
  simp only [Link.attributes, List.mem_append, List.mem_map, Option.mem_toList,
    Option.map_eq_some_iff] at member
  rcases member with (⟨other, -, rfl⟩ | ⟨v, stated, rfl⟩) | ⟨other, -, rfl⟩
  · exact Or.inl ⟨other, rfl⟩
  · exact Or.inr ⟨v, stated, rfl⟩
  · exact Or.inl ⟨other, rfl⟩

private theorem attribute_clean (member : attr ∈ link.attributes) :
    ∀ c ∈ attr, c ≠ ',' ∧ c ≠ ';' ∧ c ≠ '>' := by
  rcases mem_attributes member with ⟨other, rfl⟩ | ⟨v, -, rfl⟩
  · exact other.clean
  · intro c place
    rcases List.mem_append.mp place with head | tail
    · have named : ∀ c ∈ ['v', 'e', 'r', '='], c ≠ ',' ∧ c ≠ ';' ∧ c ≠ '>' := by simp
      exact named c head
    · obtain ⟨-, semicolon, angle, comma⟩ := v.clean c tail
      exact ⟨comma, semicolon, angle⟩

/-- `attr.strip_prefix("ver=")`. -/
def stripVersion (attr : List Char) : Option (List Char) :=
  if "ver=".toList <+: attr then some (attr.drop 4) else none

private theorem stripVersion_attributes :
    link.attributes.filterMap stripVersion = (link.version.map (·.text)).toList := by
  have others (attrs : List Attribute) : (attrs.map (·.text)).filterMap stripVersion = [] := by
    refine List.filterMap_eq_nil_iff.mpr fun attr member => ?_
    obtain ⟨other, -, rfl⟩ := List.mem_map.mp member
    exact if_neg other.other
  rw [Link.attributes, List.filterMap_append, List.filterMap_append, others, others]
  cases link.version with
  | none => rfl
  | some v =>
    have stripped : stripVersion ("ver=".toList ++ v.text) = some v.text := by
      rw [stripVersion, if_pos (List.prefix_append _ _)]
      rfl
    rw [Option.map_some, Option.toList_some, List.filterMap_cons_some stripped]
    rfl

/-- The pieces of written attributes. -/
private theorem splitOn_attributes {attrs : List (List Char)} (clean : ∀ attr ∈ attrs, ';' ∉ attr) :
    (attrs.flatMap (';' :: ·)).splitOn ';' = [] :: attrs := by
  have joined : attrs.flatMap (';' :: ·) = List.intercalate [';'] ([] :: attrs) := by
    clear clean
    induction attrs with
    | nil => rfl
    | cons attr rest ih =>
      rw [List.flatMap_cons, ih]
      cases rest <;> simp [List.intercalate_cons_cons]
  rw [joined, List.splitOn_intercalate]
  · simpa using clean
  · exact List.cons_ne_nil _ _

/-! ## Whitespace around a link -/

/-- Trimming at the end stops at a character that is no whitespace. -/
private theorem rdropWhile_append {p : Char → Bool} {c : Char} (kept : p c = false)
    (front back : List Char) :
    List.rdropWhile p (front ++ c :: back) = front ++ c :: List.rdropWhile p back := by
  simp only [List.rdropWhile, List.reverse_append, List.reverse_cons, List.append_assoc,
    List.dropWhile_append, List.singleton_append, List.dropWhile_cons, kept]
  split
  · rename_i all
    simp [List.isEmpty_iff.mp all]
  · simp

private theorem rdropWhile_all {p : Char → Bool} {back : List Char} (all : ∀ c ∈ back, p c = true)
    (front : List Char) : List.rdropWhile p (front ++ back) = List.rdropWhile p front := by
  rw [List.rdropWhile, List.reverse_append, List.dropWhile_append_of_pos, List.rdropWhile]
  simpa using all

/-- What trimming leaves of a link. -/
private theorem trim_render : trim link.render =
    "</".toList ++ link.path ++
      '>' :: List.rdropWhile isWhitespace (link.attributes.flatMap (';' :: ·) ++ link.right) := by
  have left : ∀ c ∈ link.left, isWhitespace c = true := fun c member =>
    link.blank c (List.mem_append_left _ member)
  have begins : link.render.dropWhile isWhitespace =
      ("</".toList ++ link.path) ++ '>' :: (link.attributes.flatMap (';' :: ·) ++ link.right) := by
    rw [Link.render, List.append_assoc, List.dropWhile_append_of_pos left]
    have bracket : isWhitespace '<' = false := by decide
    simp [bracket]
  calc trim link.render = List.rdropWhile isWhitespace (link.render.dropWhile isWhitespace) := rfl
    _ = _ := by rw [begins, rdropWhile_append (by decide)]

/-- Trimming an attribute at its end takes nothing from a version. -/
private theorem stripVersion_trimmed (member : attr ∈ link.attributes) :
    stripVersion (List.rdropWhile isWhitespace attr) = stripVersion attr := by
  rcases mem_attributes member with ⟨other, rfl⟩ | ⟨v, -, rfl⟩
  · have still : ¬"ver=".toList <+: List.rdropWhile isWhitespace other.text := fun begins =>
      other.other (begins.trans (List.rdropWhile_prefix _ _))
    rw [stripVersion, stripVersion, if_neg still, if_neg other.other]
  · have whole : List.rdropWhile isWhitespace ("ver=".toList ++ v.text) = "ver=".toList ++ v.text := by
      refine List.rdropWhile_eq_self_iff.mpr fun some => ?_
      rw [List.getLast_append_of_ne_nil some v.nonempty, (v.clean _ (List.getLast_mem v.nonempty)).1]
      exact Bool.false_ne_true
    rw [whole]

/-- Trimming takes away the end of the last attribute only, and nothing of a
version. -/
private theorem trimmed_attributes (link : Link) : ∃ attrs : List (List Char),
    List.rdropWhile isWhitespace (link.attributes.flatMap (';' :: ·) ++ link.right) =
      attrs.flatMap (';' :: ·) ∧
    (∀ attr ∈ attrs, ';' ∉ attr) ∧ attrs.filterMap stripVersion = link.attributes.filterMap stripVersion := by
  have right : ∀ c ∈ link.right, isWhitespace c = true := fun c member =>
    link.blank c (List.mem_append_right _ member)
  have clean : ∀ attr ∈ link.attributes, ';' ∉ attr := fun attr member place =>
    (attribute_clean member _ place).2.1 rfl
  rw [rdropWhile_all right]
  rcases List.eq_nil_or_concat' link.attributes with none | ⟨init, last, shape⟩
  · exact ⟨[], by simp [none], by simp, by simp [none]⟩
  · have member : last ∈ link.attributes := by simp [shape]
    refine ⟨init ++ [List.rdropWhile isWhitespace last], ?_, ?_, ?_⟩
    · simp only [shape, List.flatMap_append, List.flatMap_singleton]
      rw [rdropWhile_append (by decide)]
    · intro attr place
      rcases List.mem_append.mp place with old | trimmed
      · exact clean attr (by simp [shape, old])
      · cases List.mem_singleton.mp trimmed
        exact fun place => clean last member ((List.rdropWhile_prefix _ _).subset place)
    · simp only [shape, List.filterMap_append, List.filterMap_cons, stripVersion_trimmed member]

/-! ## The parser -/

private theorem version_trimmed :
    LinkFormat.version
        (List.rdropWhile isWhitespace (link.attributes.flatMap (';' :: ·) ++ link.right)) =
      (link.version.map fun v => String.ofList v.text).getD "" := by
  obtain ⟨attrs, trimmed, clean, stripped⟩ := trimmed_attributes link
  have first : stripVersion [] = none := by decide
  have found : (([] :: attrs).filterMap stripVersion).head? = link.version.map (·.text) := by
    rw [List.filterMap_cons_none first, stripped, stripVersion_attributes, Option.head?_toList]
  rw [trimmed, LinkFormat.version, splitOn_attributes clean]
  change ((([] :: attrs).filterMap stripVersion).head?.map String.ofList).getD "" = _
  rw [found, Option.map_map]
  rfl

/-- The slashes in front of a path are the one that the rendering put there. -/
private theorem relative_path : ('/' :: link.path).dropWhile (· = '/') = link.path := by
  have relative := link.relative
  cases path : link.path with
  | nil => rfl
  | cons c rest =>
    have other : c ≠ '/' := by simpa [path] using relative
    simp [other]

/-- The slice between the brackets. -/
private theorem sliceBytes_bracket (path tail : List Char) :
    sliceBytes 1 (byteLen ("</".toList ++ path)) ("</".toList ++ path ++ '>' :: tail) =
      some ('/' :: path) := by
  have whole := sliceBytes_append ['<'] ('/' :: path ++ '>' :: tail) (byteLen ('/' :: path))
  rw [splitAtByte_append] at whole
  exact whole

/-- A round of the loop adds the path, and the version if there is one. -/
private theorem readLink_render (link : Link) (acc : List String × Table UInt32 String) :
    ∃ versions, readLink acc (trim link.render) = some (acc.1 ++ [String.ofList link.path], versions) ∧
      ∀ id, versions.lookup id = (link.states id).or (acc.2.lookup id) := by
  have absent : '>' ∉ "</".toList ++ link.path := by
    rw [List.mem_append, not_or]
    exact ⟨by decide, fun place => (link.clean _ place).2.1 rfl⟩
  rw [trim_render, readLink, findByte_append absent]
  dsimp only
  rw [sliceBytes_bracket, sliceFrom_angleEnd]
  simp only [Option.bind_eq_bind, Option.bind_some, Option.pure_def, version_trimmed, relative_path]
  refine ⟨_, rfl, fun id => ?_⟩
  cases number : parseU32 (String.ofList ((link.path.splitOn '/').headD [])) with
  | none => simp only [Link.states, Link.objectId, number, reduceCtorEq, if_false, Option.none_or]
  | some objId =>
    cases stated : link.version with
    | none => simp [Link.states, stated]
    | some v =>
      have written : String.ofList v.text ≠ "" := by simpa using v.nonempty
      simp only [Link.states, Link.objectId, number, stated, Option.map_some, Option.getD_some,
        if_neg written, Table.lookup_insert_if, Option.some.injEq]
      by_cases same : id = objId
      · simp [same]
      · simp [same, Ne.symm same]

private theorem foldl_render (links : List Link) (acc : List String × Table UInt32 String) :
    ∃ versions, (links.map fun link => trim link.render).foldlM readLink acc =
        some (acc.1 ++ links.map fun link => String.ofList link.path, versions) ∧
      ∀ id, versions.lookup id = (lastVersion links id).or (acc.2.lookup id) := by
  induction links generalizing acc with
  | nil => exact ⟨acc.2, by simp, fun id => rfl⟩
  | cons link rest ih =>
    obtain ⟨middle, read, holds⟩ := readLink_render link acc
    obtain ⟨versions, ran, last⟩ := ih (acc.1 ++ [String.ofList link.path], middle)
    refine ⟨versions, ?_, fun id => ?_⟩
    · rw [List.map_cons, List.foldlM_cons, read]
      simpa using ran
    · have rest_ : lastVersion (link :: rest) id = (lastVersion rest id).or (link.states id) := by
        rw [lastVersion, List.filterMap_cons]
        cases link.states id with
        | none => simp [lastVersion]
        | some version =>
          dsimp only
          rw [List.getLast?_cons, lastVersion]
          cases (rest.filterMap (·.states id)).getLast? <;> rfl
      rw [last, holds, rest_, Option.or_assoc]

private theorem links_render {rendered : List Link} (some_ : rendered ≠ []) :
    links (renderLinks rendered) = rendered.map fun link => trim link.render := by
  have comma : ∀ piece ∈ rendered.map (·.render), ',' ∉ piece := by
    intro piece member
    obtain ⟨link, -, rfl⟩ := List.mem_map.mp member
    refine notMem_render (by decide) (fun place => (link.clean _ place).2.2 rfl) (by decide) ?_
    intro attr written place
    rcases List.mem_cons.mp place with same | place
    · cases same
    · exact (attribute_clean written _ place).1 rfl
  rw [links, renderLinks, splitText, String.toList_ofList, List.splitOn_intercalate _ comma]
  · simp
  · simpa using some_

/-- **The parser inverts the rendering.** -/
theorem parseLinkFormat_renderLinks (rendered : List Link) :
    ∃ versions, parseLinkFormat (renderLinks rendered) =
        some (rendered.map fun link => String.ofList link.path, versions) ∧
      ∀ id, versions.lookup id = lastVersion rendered id := by
  by_cases empty : rendered = []
  · subst empty
    have blank : links (renderLinks []) = [[]] := by decide +kernel
    refine ⟨∅, ?_, fun id => rfl⟩
    rw [parseLinkFormat, blank]
    rfl
  · obtain ⟨versions, ran, last⟩ := foldl_render rendered ([], ∅)
    refine ⟨versions, ?_, fun id => ?_⟩
    · rw [parseLinkFormat, links_render empty, ran]
      simp
    · rw [last]
      simp

end Lwm2mServer.LinkFormat
