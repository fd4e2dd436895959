import CodeAtlas.Proofs.Svg.Markup
import CodeAtlas.Proofs.Text.Segment

/-! Reading a drawing back: the tags of a markup text, and what those of a drawing stand for. Texts
are read part by part, as long as no tag is cut in two. -/
namespace CodeAtlas.Svg

open Text

/-- A tag with its name and its attributes, and the text between it and the next tag. There are no
brackets in attributes. -/
structure Tag where
  name : List Char
  attributes : List (List Char × List Char)
  content : List Char

/-- Names and values, from the texts between quotation marks: every other one is a value. -/
def attributesIn : List (List Char) → List (List Char × List Char)
  | key :: value :: rest =>
    ((key.dropWhile (· == ' ')).takeWhile (· != '='), value) :: attributesIn rest
  | _ => []

/-- The tag of what stands between two brackets. -/
def Tag.of (inside content : List Char) : Tag where
  name := inside.takeWhile (· != ' ')
  attributes := attributesIn (splitOn '"' (inside.dropWhile (· != ' ')))
  content := content

/-- The tag whose opening bracket stands in front of a text. -/
def Tag.read (text : List Char) : Tag :=
  let inside := text.takeWhile (· != '>')
  Tag.of inside ((text.drop (inside.length + 1)).takeWhile (· != '<'))

def tagsOf : List Char → List Tag
  | [] => []
  | c :: cs => if c = '<' then Tag.read cs :: tagsOf cs else tagsOf cs

def Tag.attribute? (t : Tag) (name : String) : Option (List Char) := t.attributes.lookup name.toList

/-- What a tag of a drawing stands for: a node with its id, a link, a caption, or the end of a
group. -/
inductive Mark where
  | node (id : String)
  | link
  | caption (text : String)
  | groupEnd
deriving DecidableEq

def Tag.mark? (t : Tag) : Option Mark :=
  if t.name = "g".toList then
    if "diagram-node ".toList.isPrefixOf ((t.attribute? "class").getD []) then
      some (.node (String.ofList (unescape ((t.attribute? "data-id").getD []))))
    else none
  else if t.name = "line".toList then some .link
  else if t.name = "text".toList then some (.caption (String.ofList (unescape t.content)))
  else if t.name = "/g".toList then some .groupEnd
  else none

def marksOf (text : List Char) : List Mark := (tagsOf text).filterMap Tag.mark?

def captionsAt : List Mark → List String
  | .caption text :: marks => text :: captionsAt marks
  | _ => []

/-- The nodes of a drawing, each with the captions of its group. -/
def nodesAt : List Mark → List (String × List String)
  | [] => []
  | .node id :: marks => (id, captionsAt marks) :: nodesAt marks
  | _ :: marks => nodesAt marks

def Reads (text : List Char) (marks : List Mark) : Prop :=
  ∀ rest, marksOf (text ++ rest) = marks ++ marksOf rest

theorem Reads.nil : Reads [] [] := fun _ => rfl

theorem Reads.append {text more : List Char} {marks marks' : List Mark} (h : Reads text marks)
    (h' : Reads more marks') : Reads (text ++ more) (marks ++ marks') := by
  intro rest
  rw [List.append_assoc, h, h', List.append_assoc]

theorem Reads.flatMap {α : Type} {items : List α} {text : α → List Char} {marks : α → List Mark}
    (h : ∀ item ∈ items, Reads (text item) (marks item)) :
    Reads (items.flatMap text) (items.flatMap marks) := by
  induction items with
  | nil => exact .nil
  | cons item items ih =>
    obtain ⟨hitem, hitems⟩ := List.forall_mem_cons.1 h
    rw [List.flatMap_cons, List.flatMap_cons]
    exact hitem.append (ih hitems)

theorem Reads.marksOf_eq {text : List Char} {marks : List Mark} (h : Reads text marks) :
    marksOf text = marks := by
  have hend := h []
  rwa [List.append_nil, show marksOf [] = [] from rfl, List.append_nil] at hend

theorem reads_of_not_mem {text : List Char} (h : '<' ∉ text) : Reads text [] := by
  intro rest
  induction text with
  | nil => rfl
  | cons c cs ih =>
    rw [List.mem_cons, not_or] at h
    rw [← ih h.2, List.cons_append, marksOf, tagsOf, if_neg (Ne.symm h.1)]
    rfl

theorem Bare.takeWhile_append {cs : List Char} (h : Bare cs) (rest : List Char) :
    (cs ++ rest).takeWhile (· != '>') = cs ++ rest.takeWhile (· != '>') :=
  List.takeWhile_append_of_pos fun c hc => bne_iff_ne.2 (h c hc).2

private theorem Tag.read_append {inside : List Char} (h : Bare inside) (rest : List Char) :
    Tag.read (inside ++ '>' :: rest) = Tag.of inside (rest.takeWhile (· != '<')) := by
  have hinside : (inside ++ '>' :: rest).takeWhile (· != '>') = inside :=
    takeWhile_ne_append_cons fun hmem => (h _ hmem).2 rfl
  have hbehind : (inside ++ '>' :: rest).drop (inside.length + 1) = rest := by
    rw [List.append_cons]
    exact List.drop_left' (by simp)
  simp only [Tag.read, hinside, hbehind]

theorem marksOf_bracket (cs : List Char) :
    marksOf ('<' :: cs) = (Tag.read cs).mark?.toList ++ marksOf cs := by
  rw [marksOf, tagsOf, if_pos rfl, List.filterMap_cons]
  cases (Tag.read cs).mark? <;> rfl

theorem reads_caption {attributes content : List Char} (hattributes : Bare attributes)
    (hcontent : '<' ∉ content) :
    Reads ("<text ".toList ++ (attributes ++ '>' :: (content ++ "</text>".toList)))
      [.caption (String.ofList (unescape content))] := by
  intro rest
  have hinside : Bare ("text ".toList ++ attributes) := bare_append.2 ⟨by decide, hattributes⟩
  have hbehind : (content ++ ("</text>".toList ++ rest)).takeWhile (· != '<') = content :=
    takeWhile_ne_append_cons hcontent
  have htag : Tag.read ("text ".toList ++ attributes ++ '>' ::
      (content ++ ("</text>".toList ++ rest))) = Tag.of ("text ".toList ++ attributes) content := by
    rw [Tag.read_append hinside, hbehind]
  have hskip : Reads ("text ".toList ++ attributes ++ '>' :: content) [] :=
    reads_of_not_mem (by simp [hattributes.not_mem, hcontent])
  have hend : Reads "</text>".toList [] := fun _ => rfl
  have htext : "<text ".toList ++ (attributes ++ '>' :: (content ++ "</text>".toList)) ++ rest =
      '<' :: ("text ".toList ++ attributes ++ '>' :: (content ++ ("</text>".toList ++ rest))) := by
    simp
  rw [htext, marksOf_bracket, htag]
  have hrest := hskip.append hend rest
  simp only [List.append_assoc, List.cons_append, List.nil_append] at hrest ⊢
  rw [hrest]
  rfl

theorem attributesIn_cons {key value : List Char} (hkey : '"' ∉ key) (hvalue : '"' ∉ value)
    (rest : List Char) :
    attributesIn (splitOn '"' (key ++ '"' :: (value ++ '"' :: rest))) =
      ((key.dropWhile (· == ' ')).takeWhile (· != '='), value) ::
        attributesIn (splitOn '"' rest) := by
  rw [splitOn_append_cons hkey, splitOn_append_cons hvalue, attributesIn]

private theorem mark?_of_node {t : Tag} {role id : List Char} {more : List (List Char × List Char)}
    (hname : t.name = "g".toList)
    (hattributes : t.attributes =
      ("class".toList, "diagram-node ".toList ++ role) :: ("data-id".toList, id) :: more) :
    t.mark? = some (.node (String.ofList (unescape id))) := by
  have hclass : t.attribute? "class" = some ("diagram-node ".toList ++ role) := by
    rw [Tag.attribute?, hattributes]
    rfl
  have hid : t.attribute? "data-id" = some id := by
    rw [Tag.attribute?, hattributes]
    rfl
  have hkind : "diagram-node ".toList.isPrefixOf ("diagram-node ".toList ++ role) = true :=
    List.isPrefixOf_iff_prefix.2 (List.prefix_append _ _)
  rw [Tag.mark?, if_pos hname, hclass, hid, Option.getD_some, if_pos hkind, Option.getD_some]

def nodeFront (role id : List Char) : List Char :=
  "g class=\"diagram-node ".toList ++ (role ++ ("\" data-id=\"".toList ++ (id ++ "\"".toList)))

section NodeFront

variable {role id : List Char}

private theorem bare_nodeFront (hrole : Bare role) (hid : Bare id) : Bare (nodeFront role id) := by
  unfold nodeFront
  simp only [bare_append]
  exact ⟨by decide +kernel, hrole, by decide +kernel, hid, by decide +kernel⟩

private theorem nodeFront_append (role id more : List Char) : nodeFront role id ++ more =
    'g' :: ' ' :: ("class=".toList ++ '"' :: (("diagram-node ".toList ++ role) ++ '"' ::
      (" data-id=".toList ++ '"' :: (id ++ '"' :: more)))) := by
  unfold nodeFront
  simp only [List.append_assoc]
  rfl

private theorem mark?_nodeFront (hrole : '"' ∉ role) (hid : '"' ∉ id) (more content : List Char) :
    (Tag.of (nodeFront role id ++ more) content).mark? =
      some (.node (String.ofList (unescape id))) := by
  have hvalue : '"' ∉ "diagram-node ".toList ++ role := by simp [hrole]
  rw [nodeFront_append]
  generalize hrest : "class=".toList ++ '"' :: (("diagram-node ".toList ++ role) ++ '"' ::
      (" data-id=".toList ++ '"' :: (id ++ '"' :: more))) = inside
  have hkey : '"' ∉ ' ' :: "class=".toList := by decide
  have hpairs := attributesIn_cons hkey hvalue (" data-id=".toList ++ '"' :: (id ++ '"' :: more))
  rw [attributesIn_cons (by decide) hid, List.cons_append, hrest] at hpairs
  exact mark?_of_node (t := Tag.of ('g' :: ' ' :: inside) content) rfl hpairs

theorem reads_nodeFront (hrole : Bare role) (hid : Bare id) (hrole' : '"' ∉ role)
    (hid' : '"' ∉ id) :
    Reads ('<' :: nodeFront role id) [.node (String.ofList (unescape id))] := by
  intro rest
  have hbare := bare_nodeFront hrole hid
  have hskip := reads_of_not_mem hbare.not_mem rest
  rw [List.nil_append] at hskip
  have htag : ∃ content, Tag.read (nodeFront role id ++ rest) =
      Tag.of (nodeFront role id ++ rest.takeWhile (· != '>')) content :=
    ⟨_, by rw [Tag.read, hbare.takeWhile_append]⟩
  obtain ⟨content, htag⟩ := htag
  rw [List.cons_append, marksOf_bracket, hskip, htag, mark?_nodeFront hrole' hid',
    Option.toList_some]

end NodeFront

end CodeAtlas.Svg
