import MarkupEdit.Style.Group
import MarkupEdit.Text.Ascii
import MarkupEdit.Text.Blank

/-!
# Keys of classes

What decides whether two utility classes conflict: their variants (`md:hover:`), their mark of
importance, and the group of the utility.

* `splitVariants`: the variants of a class and its utility.
* `classify?`: the group of a utility.
* `Key.displaces`: whether adding one class takes another away.
-/

namespace MarkupEdit.Style

open MarkupEdit.Text

/-- The depth of brackets behind one more character. -/
def bracketDepth (depth : Nat) (c : Char) : Nat :=
  if c == '[' then depth + 1 else if c == ']' then depth - 1 else depth

/-- The number of characters up to the last colon outside brackets, the colon counted. -/
def variantLength (depth : Nat) : List Char → Nat
  | [] => 0
  | c :: s =>
    match variantLength (bracketDepth depth c) s with
    | 0 => if c == ':' && depth == 0 then 1 else 0
    | n + 1 => n + 2

/-- The variants of a class, with their colons, and the utility behind them. -/
def splitVariants (s : List Char) : List Char × List Char :=
  (s.take (variantLength 0 s), s.drop (variantLength 0 s))

theorem splitVariants_append (s : List Char) : (splitVariants s).1 ++ (splitVariants s).2 = s :=
  List.take_append_drop _ s

/-- The group of a utility. -/
inductive Group where
  /-- A group of the table. -/
  | listed (name : String)
  /-- Utilities of one stem outside the table, with any value in brackets. -/
  | anyValue (stem : String)
  /-- A declaration in brackets, by its property. -/
  | property (name : String)
  deriving DecidableEq, Repr

namespace Group

def name : Group → String
  | listed name => name
  | anyValue stem => "arbitrary:" ++ stem
  | property name => "property:" ++ name

def category : Group → Category
  | listed name => ((conflictGroup? name).map ConflictGroup.category).getD .misc
  | _ => .misc

/-- Whether a class of this group replaces the classes of another: of the same group or of one that
it covers. -/
def replaces (g h : Group) : Bool :=
  g == h ||
    match g, h with
    | listed wide, listed narrow =>
      ((conflictGroup? wide).map (fun group => group.covers.contains narrow)).getD false
    | _, _ => false

end Group

/-- Colours without shades. -/
def plainColors : List String := ["inherit", "current", "transparent", "black", "white"]

/-- Colours with shades. -/
def shadedColors : List String :=
  ["slate", "gray", "zinc", "neutral", "stone", "red", "orange", "amber", "yellow", "lime",
    "green", "emerald", "teal", "cyan", "sky", "blue", "indigo", "violet", "purple", "fuchsia",
    "pink", "rose"]

/-- Starts of colours in brackets. -/
def bracketedColorStarts : List String :=
  ["#", "rgb", "hsl", "oklch", "oklab", "color:", "var("]

def startsWithAny (starts : List String) (s : List Char) : Bool :=
  starts.any (fun start => (dropStart? start.toList s).isSome)

/-- Whether the value in brackets of a class is a colour. -/
def isBracketedColor (s : List Char) : Bool :=
  ((dropEnd? [']'] s).map isSmallWord).getD false || startsWithAny bracketedColorStarts s

/-- Whether words with hyphens between them name a colour: one of the palette, or one of a theme. -/
def isNamedColor (s : List Char) : Bool :=
  plainColors.contains (String.ofList s)
    || ((splitLast? (· == '-') s).map (fun (color, shade) =>
        shadedColors.contains (String.ofList color) && isDigits shade)).getD false
    || (splitAtEach (· == '-') s).all isSmallWord

/-- Whether the value of a class is a colour, without regard to an opacity behind a slash. -/
def isColor (s : List Char) : Bool :=
  match s with
  | '[' :: inside => isBracketedColor inside
  | _ => isNamedColor (((splitFirst? (· == '/') s).map Prod.fst).getD s)

/-- The groups that take over where the value in brackets is a length. -/
def lengthGroup? (name : String) : Option String :=
  [("text_color", "font_size"), ("border_color", "border_width")].lookup name

/-- The groups that take over where the value in brackets is an image. -/
def imageGroup? (name : String) : Option String :=
  [("background_color", "background_image")].lookup name

/-- The groups that take over where the value is a colour. -/
def colorGroup? (name : String) : Option String :=
  [("border_width_x", "border_color_x"), ("border_width_y", "border_color_y"),
    ("border_width_t", "border_color_t"), ("border_width_r", "border_color_r"),
    ("border_width_b", "border_color_b"), ("border_width_l", "border_color_l")].lookup name

/-- The group that takes over for a length or an image in brackets. -/
def bracketedGroup? (name : String) (value : List Char) : Option String :=
  match value with
  | '[' :: inside =>
    if (inside.head?.map (fun c => isAsciiDigit c || c == '.')).getD false then lengthGroup? name
    else if startsWithAny ["url("] inside || hasPart "gradient(".toList inside then imageGroup? name
    else none
  | _ => none

/-- The group of a class that starts with a stem of a group, by the value behind the stem. A group
of colours takes nothing but colours. -/
def groupOfValue? (group : ConflictGroup) (value : List Char) : Option String :=
  match bracketedGroup? group.name value with
  | some name => some name
  | none =>
    match colorGroup? group.name with
    | some name => some (if isColor value then name else group.name)
    | none => if group.category == .color && !isColor value then none else some group.name

/-- The property of a declaration in brackets, as in `[mask-type:luminance]`. -/
def bracketedProperty? (s : List Char) : Option (List Char) :=
  match s with
  | '[' :: inside =>
    ((dropEnd? [']'] inside).bind (splitFirst? (· == ':'))).bind fun (property, _) =>
      if property.isEmpty then none else some property
  | _ => none

/-- The stem in front of a value in brackets, as in `foo-[3px]`. -/
def bracketedStem? (s : List Char) : Option (List Char) :=
  (splitAt? ['-', '['] s).bind fun (stem, _) =>
    if !stem.isEmpty && s.getLast? == some ']' then some stem else none

/-- The group with the longest stem that a utility starts with, and the value behind that stem. -/
def longestStem? (utility : List Char) : Option (ConflictGroup × List Char) :=
  conflictGroups.foldl (fun best group =>
    group.stems.foldl (fun best stem =>
      match dropStart? stem.toList utility with
      | none | some [] => best
      | some value =>
        match best with
        | none => some (group, value)
        | some (_, other) => if value.length < other.length then some (group, value) else best)
      best) none

/-- The group of a utility, if it belongs to one. -/
def classify? (utility : List Char) : Option Group :=
  match bracketedProperty? utility with
  | some property => some (.property (String.ofList property))
  | none =>
    let token := String.ofList utility
    match conflictGroups.find? (fun group => group.members.contains token) with
    | some group => some (.listed group.name)
    | none =>
      match longestStem? utility with
      | some (group, value) => (groupOfValue? group value).map .listed
      | none => (bracketedStem? utility).map (fun stem => .anyValue (String.ofList stem))

/-- What decides which classes a class replaces. -/
structure Key where
  /-- The variants, with their colons. -/
  variants : String
  /-- Whether the class carries the mark `!`. -/
  important : Bool
  group : Group
  deriving DecidableEq, Repr

/-- A utility without its mark of importance, and whether it had one. -/
def splitImportant (utility : List Char) : Bool × List Char :=
  match dropStart? ['!'] utility, dropEnd? ['!'] utility with
  | some rest, _ => (true, rest)
  | none, some rest => (true, rest)
  | none, none => (false, utility)

/-- A utility without its sign. -/
def unsigned (utility : List Char) : List Char := (dropStart? ['-'] utility).getD utility

namespace Key

/-- The key of a class that belongs to a group. -/
def of? (token : String) : Option Key :=
  let (variants, utility) := splitVariants token.toList
  let (important, plain) := splitImportant utility
  (classify? (unsigned plain)).map (fun group => ⟨String.ofList variants, important, group⟩)

/-- Whether adding a class with this key takes away one with the other. -/
def displaces (k l : Key) : Bool :=
  k.variants == l.variants && k.important == l.important && k.group.replaces l.group

end Key

/-- The category of a class; a class of no group is in the last one. -/
def categoryOf (token : String) : Category :=
  ((Key.of? token).map (fun key => key.group.category)).getD .misc

end MarkupEdit.Style
