import Mathlib.Tactic
import Mathlib.Data.List.TakeWhile

/-!
# Texts and documents

What the readers of files are given: lines with decimal numbers, and the tree of a document with
pointers to its nodes.
-/

/-! ## Text files of decimal numbers

One number is written on each line. A reader that asks for lines until it has met the
end of the file also gets what comes behind the last line end, which is empty. -/

namespace Vexjine.DecimalLines

/-- An integer as a stream prints it. -/
def printed (value : Int) : List Char := (toString value).toList

def digits (text : List Char) : Int := Nat.ofDigitChars 10 (text.takeWhile Char.isDigit) 0

def isspace (c : Char) : Bool := c ∈ [' ','\t','\n','\x0b','\x0c','\r']

/-- `atoll`: blanks, a sign, and the digits up to the first other character; values out of range are
    the nearest ones in range. -/
def atoll (text : List Char) : Int :=
  let value := match text.dropWhile isspace with
    | '-' :: rest => -digits rest
    | '+' :: rest => digits rest
    | rest => digits rest
  max (-2 ^ 63) (min (2 ^ 63 - 1) value)

/-- `atoi`, an `int` made from a `long`. -/
def atoi (text : List Char) : Int := (atoll text).bmod (2 ^ 32)

/-- What is read until a reading meets the end of the text. -/
def getlines (text : List Char) : List (List Char) := text.splitOn '\n'

/-- A text with a line for each number. -/
def written (values : List Int) : List Char := values.flatMap fun value => printed value ++ ['\n']

private theorem printed_of_nonneg {value : Int} (nonneg : 0 ≤ value) : printed value = Nat.toDigits 10 value.toNat := by
  rw [printed,Int.toString_eq_repr,Int.repr_eq_if,if_pos nonneg,Nat.toList_repr]

private theorem printed_of_neg {value : Int} (negative : value < 0) :
    printed value = '-' :: Nat.toDigits 10 (-value).toNat := by
  rw [printed,Int.toString_eq_repr,Int.repr_eq_if,if_neg (by omega),String.toList_append,Nat.toList_repr]
  rfl

private theorem isDigit_of_mem {value : Nat} {c : Char} (member : c ∈ Nat.toDigits 10 value) : c.isDigit = true :=
  Nat.isDigit_of_mem_toDigits (by decide) (by decide) member

theorem newline_not_in_printed (value : Int) : '\n' ∉ printed value := by
  intro member
  rcases lt_or_ge value 0 with negative | nonneg
  · rw [printed_of_neg negative,List.mem_cons] at member
    exact absurd (isDigit_of_mem (member.resolve_left (by decide))) (by decide)
  · rw [printed_of_nonneg nonneg] at member
    exact absurd (isDigit_of_mem member) (by decide)

private theorem digits_toDigits (value : Nat) : digits (Nat.toDigits 10 value) = value := by
  have all : (Nat.toDigits 10 value).takeWhile Char.isDigit = Nat.toDigits 10 value :=
    List.takeWhile_eq_self_iff.mpr fun _ => isDigit_of_mem
  rw [digits,all,Nat.ofDigitChars_ten_toDigits]

/-- The digits begin with no blank and no sign. -/
private theorem atoll_toDigits (value : Nat) : atoll (Nat.toDigits 10 value) = max (-2 ^ 63) (min (2 ^ 63 - 1) (value : Int)) := by
  have isNumber := digits_toDigits value
  cases number : Nat.toDigits 10 value with
  | nil => exact absurd number Nat.toDigits_ne_nil
  | cons first rest =>
    have isDigit : first.isDigit = true := isDigit_of_mem (number ▸ List.mem_cons_self)
    have noBlank : isspace first = false := by
      rw [isspace,decide_eq_false_iff_not]
      intro member
      fin_cases member <;> simp at isDigit
    have noMinus : first ≠ '-' := by
      rintro rfl
      simp at isDigit
    have noPlus : first ≠ '+' := by
      rintro rfl
      simp at isDigit
    rw [number] at isNumber
    rw [atoll,List.dropWhile_cons_of_neg (by simp [noBlank])]
    split
    · next same => exact absurd (List.cons.inj same).1 noMinus
    · next same => exact absurd (List.cons.inj same).1 noPlus
    · rw [isNumber]

@[simp] theorem atoll_nil : atoll [] = 0 := by decide

/-- Numbers of 64 bits are read as they were printed. -/
theorem atoll_printed {value : Int} (least : -2 ^ 63 ≤ value) (greatest : value < 2 ^ 63) : atoll (printed value) = value := by
  rcases lt_or_ge value 0 with negative | nonneg
  · have blank : isspace '-' = false := by decide
    rw [printed_of_neg negative,atoll,List.dropWhile_cons_of_neg (by simp [blank])]
    show max (-2 ^ 63) (min (2 ^ 63 - 1) (-digits (Nat.toDigits 10 (-value).toNat))) = value
    rw [digits_toDigits,Int.toNat_of_nonneg (by omega),neg_neg]
    omega
  · rw [printed_of_nonneg nonneg,atoll_toDigits]
    omega

/-- Behind the last line there is an empty one. -/
theorem getlines_written (values : List Int) : getlines (written values) = values.map printed ++ [[]] := by
  induction values with
  | nil => rfl
  | cons value values ih =>
    rw [written,List.flatMap_cons,List.append_assoc,List.singleton_append,getlines,
      List.splitOn_append_cons_self_of_not_mem (newline_not_in_printed value)]
    exact congrArg (List.cons (printed value)) ih

end Vexjine.DecimalLines

/-! ## Pointers into a document

The tree of a document, and pointers to its nodes: a pointer gives the node and its next siblings, and NULL has
nothing behind it. A call on NULL is a failure, as is the use of what is behind the end of an array or a map. -/

namespace Vexjine.XmlPointers

inductive Node where
  | element (tag : String) (attributes : List (String × String)) (children : List Node)
  | text (value : String)

namespace Node

/-- `Value()`: the name of an element. -/
def value : Node → String
  | element tag _ _ => tag
  | text value => value

def children : Node → List Node
  | element _ _ children => children
  | text _ => []

end Node

inductive Failure where
  | nullPointer
  | pastTheEnd
  deriving DecidableEq

/-- A node and its next siblings, or NULL. -/
abbrev Pointer := List Node

/-- The first node of a name. -/
def named (name : String) (nodes : List Node) : Pointer := nodes.dropWhile fun node => node.value ≠ name

def FirstChild (name : String) : Pointer → Except Failure Pointer
  | [] => .error .nullPointer
  | node :: _ => .ok (named name node.children)

def NextSibling (name : String) : Pointer → Except Failure Pointer
  | [] => .error .nullPointer
  | _ :: siblings => .ok (named name siblings)

/-- `ToElement()->Attribute(name)`; a text is no element. -/
def Attribute (name : String) : Pointer → Except Failure (Option String)
  | .element _ attributes _ :: _ => .ok (attributes.lookup name)
  | _ => .error .nullPointer

/-- `ToElement()->GetText()`: the text that an element begins with. -/
def GetText : Pointer → Except Failure (Option String)
  | .element _ _ (.text value :: _) :: _ => .ok (some value)
  | .element _ _ _ :: _ => .ok none
  | _ => .error .nullPointer

/-- What is made into a string, or a number, is not NULL. -/
def required : Option String → Except Failure String
  | none => .error .nullPointer
  | some value => .ok value

/-- The nodes that `FirstChild(name)`, and from there `NextSibling(name)`, lead to. -/
def places (name : String) : List Node → List Pointer
  | [] => []
  | node :: siblings => if node.value = name then (node :: siblings) :: places name siblings else places name siblings

/-- The first node of the name that has the attribute. -/
def namedWith (name attr value : String) : List Node → Except Failure Pointer
  | [] => .ok []
  | node :: siblings =>
    if node.value = name then do
      let found ← Attribute attr (node :: siblings)
      if found = some value then .ok (node :: siblings) else namedWith name attr value siblings
    else namedWith name attr value siblings

variable {name attr value : String}

theorem places_named (nodes : List Node) : places name (named name nodes) = places name nodes := by
  induction nodes with
  | nil => rfl
  | cons node siblings ih =>
    by_cases same : node.value = name
    · rw [named,List.dropWhile_cons_of_neg (by simpa using same)]
    · rw [named,List.dropWhile_cons_of_pos (by simpa using same),places,if_neg same]
      exact ih

/-- From each place `NextSibling` leads to the next one, and behind the last one there is none. -/
theorem places_next (node : Node) (siblings : List Node) (same : node.value = name) :
    ∃ next, NextSibling name (node :: siblings) = .ok next ∧
      places name (node :: siblings) = (node :: siblings) :: places name next := by
  refine ⟨named name siblings,rfl,?_⟩
  rw [places,if_pos same,places_named]

theorem namedWith_of_absent {nodes : List Node} (absent : ∀ node ∈ nodes, node.value ≠ name) :
    namedWith name attr value nodes = .ok [] := by
  induction nodes with
  | nil => rfl
  | cons node siblings ih =>
    rw [namedWith,if_neg (absent node List.mem_cons_self)]
    exact ih fun other member => absent other (List.mem_cons_of_mem node member)

/-- Elements of the name, each with the attribute: the search goes by its value. -/
theorem namedWith_elements {Item : Type*} {key : Item → String} {contents : Item → List Node} (items : List Item) :
    namedWith name attr value (items.map fun item => .element name [(attr,key item)] (contents item)) =
      .ok ((items.dropWhile fun item => key item ≠ value).map fun item =>
        .element name [(attr,key item)] (contents item)) := by
  induction items with
  | nil => rfl
  | cons item items ih =>
    have found : Attribute attr ((Node.element name [(attr,key item)] (contents item)) ::
        items.map fun item => .element name [(attr,key item)] (contents item)) = .ok (some (key item)) := by
      simp [Attribute]
    rw [List.map_cons,namedWith,if_pos (show (Node.element name _ _).value = name from rfl),found]
    by_cases same : key item = value
    · rw [List.dropWhile_cons_of_neg (by simpa using same)]
      exact if_pos (congrArg some same)
    · rw [List.dropWhile_cons_of_pos (by simpa using same),← ih]
      exact if_neg (by simpa using same)

end Vexjine.XmlPointers
