import MarkupEdit.Style.Declaration
import MarkupEdit.Style.Scale

/-!
# Declarations as utility classes

Each property that has utility classes has a rule. A value of a scale has a class of its own; any
other value is put into brackets behind the stem of the classes, or, for a property of keywords,
together with its property.

* `Rule.named?`: the class of a value that is on a scale.
* `Rule.bracketed`: the class of any value.
* `utilityClass?`: the class of a declaration.
* `mapDeclarations`: the classes of declarations, and the declarations without one.
-/

namespace MarkupEdit.Style

open MarkupEdit.Text

/-- The rule of a property: the stem of its classes and the scale of its values. -/
inductive Rule where
  | color (stem : String)
  | fontSize
  | fontWeight
  | lineHeight
  | letterSpacing
  | spacing (stem : String)
  | sizing (stem : String)
  | maxWidth
  | radius
  | borderWidth
  | shadow
  | opacity
  | level
  | flex
  /-- Zero and one, where one is the bare class. -/
  | toggle (stem : String)
  /-- Counts of tracks of equal width. -/
  | tracks (stem : String)
  /-- Keywords with their classes. -/
  | keywords (property : String) (classes : List (String × String))
  deriving Repr

/-- The properties with scales. -/
def ruleTable : List (String × Rule) :=
  [("color", .color "text"), ("background-color", .color "bg"), ("background", .color "bg"),
   ("border-color", .color "border"), ("font-size", .fontSize), ("font-weight", .fontWeight),
   ("line-height", .lineHeight), ("letter-spacing", .letterSpacing),
   ("padding", .spacing "p"), ("padding-top", .spacing "pt"), ("padding-right", .spacing "pr"),
   ("padding-bottom", .spacing "pb"), ("padding-left", .spacing "pl"),
   ("padding-inline", .spacing "px"), ("padding-block", .spacing "py"),
   ("margin", .spacing "m"), ("margin-top", .spacing "mt"), ("margin-right", .spacing "mr"),
   ("margin-bottom", .spacing "mb"), ("margin-left", .spacing "ml"),
   ("margin-inline", .spacing "mx"), ("margin-block", .spacing "my"),
   ("gap", .spacing "gap"), ("row-gap", .spacing "gap-y"), ("column-gap", .spacing "gap-x"),
   ("top", .sizing "top"), ("right", .sizing "right"), ("bottom", .sizing "bottom"),
   ("left", .sizing "left"), ("inset", .sizing "inset"),
   ("width", .sizing "w"), ("height", .sizing "h"), ("min-width", .sizing "min-w"),
   ("min-height", .sizing "min-h"), ("max-height", .sizing "max-h"), ("max-width", .maxWidth),
   ("flex-basis", .sizing "basis"), ("border-radius", .radius), ("border-width", .borderWidth),
   ("box-shadow", .shadow), ("opacity", .opacity), ("z-index", .level), ("flex", .flex),
   ("flex-grow", .toggle "grow"), ("flex-shrink", .toggle "shrink"),
   ("grid-template-columns", .tracks "grid-cols"), ("grid-template-rows", .tracks "grid-rows")]

/-- The rule of a property, if it has one. -/
def rule? (property : String) : Option Rule :=
  match ruleTable.lookup property with
  | some rule => some rule
  | none => (keywordTable.lookup property).map (.keywords property)

/-- The pixels of a length, in thousandths. -/
def pixelsOf? (value : String) : Option Int := (Length.parse? value).bind Length.pixels?

/-- A stem and the name of a value behind it. -/
def hyphenated (stem name : String) : String := stem ++ "-" ++ name

/-- The class of a step of a scale, with a hyphen in front for a length below zero. -/
def signedClass (stem : String) (length : Length) (name : String) : String :=
  (if length.isNegative then "-" else "") ++ hyphenated stem name

/-- The class of a length on the scale of spacing, or of `auto`. -/
def spacingClass? (stem value : String) : Option String :=
  if sameIgnoringCase value "auto" then some (hyphenated stem "auto")
  else
    (Length.parse? value).bind fun length =>
      (length.abs.pixels?.bind (spacings.lookup ·)).map (signedClass stem length)

/-- The class of a share of the space. -/
def fractionClass? (stem value : String) : Option String :=
  (Length.parse? value).bind fun length =>
    if length.unit = .percent then
      (fractions.lookup length.abs.thousandths).map (signedClass stem length)
    else none

/-- The names of sizes that the content or the screen decides. -/
def sizeName? (stem value : String) : Option String :=
  match asciiLower value with
  | "fit-content" => some "fit"
  | "min-content" => some "min"
  | "max-content" => some "max"
  | "100vw" => if ["w", "min-w"].contains stem then some "screen" else none
  | "100vh" => if ["h", "min-h", "max-h"].contains stem then some "screen" else none
  | _ => none

def maxWidthName? (value : String) : Option String :=
  match asciiLower value with
  | "none" => some "none"
  | "100%" => some "full"
  | "fit-content" => some "fit"
  | "min-content" => some "min"
  | "max-content" => some "max"
  | _ => (pixelsOf? value).bind (maxWidths.lookup ·)

def lineHeightName? (value : String) : Option String :=
  if sameIgnoringCase value "normal" then some "normal"
  else
    (Length.parse? value).bind fun length =>
      match length.unit with
      | .none => lineRatios.lookup length.thousandths
      | _ => length.pixels?.bind (lineHeights.lookup ·)

def letterSpacingName? (value : String) : Option String :=
  if sameIgnoringCase value "normal" then some "normal"
  else
    (Length.parse? value).bind fun length =>
      match length.unit with
      | .em => letterSpacings.lookup length.thousandths
      | .none => if length.isZero then some "normal" else none
      | _ => none

def opacityName? (value : String) : Option String :=
  (Length.parse? value).bind fun length =>
    match length.unit with
    | .none => opacities.lookup length.thousandths
    | .percent => (opacities.find? (fun step => step.1 * 100 == length.thousandths)).map Prod.snd
    | _ => none

def flexName? (value : String) : Option String :=
  match asciiLower (" ".intercalate (words value)) with
  | "1" | "1 1 0%" | "1 1 0" => some "1"
  | "auto" | "1 1 auto" => some "auto"
  | "initial" | "0 1 auto" => some "initial"
  | "none" | "0 0 auto" => some "none"
  | _ => none

/-- The class of a level of the stacking order, with a hyphen in front for one below zero. -/
def levelClass? (value : String) : Option String :=
  if sameIgnoringCase value "auto" then some "z-auto"
  else
    let (sign, magnitude) := match dropStart? ['-'] value.toList with
      | some rest => ("-", String.ofList rest)
      | none => ("", value)
    if levels.contains magnitude then some (sign ++ hyphenated "z" magnitude) else none

/-- The count of tracks of equal width that a value such as `repeat(3, minmax(0, 1fr))` asks for. -/
def trackName? (value : String) : Option String :=
  let compact := value.toList.filter (fun c => !isBlank c)
  if sameIgnoringCase (String.ofList compact) "none" then some "none"
  else
    ((dropStart? "repeat(".toList compact).bind (dropEnd? ",minmax(0,1fr))".toList)).bind
      fun digits => if isDigits digits then some (String.ofList digits) else none

namespace Rule

/-- The class of a value that is on the scale. -/
def named? (value : String) : Rule → Option String
  | color stem => (colors.lookup (asciiLower value)).map (hyphenated stem)
  | fontSize => ((pixelsOf? value).bind (fontSizes.lookup ·)).map (hyphenated "text")
  | fontWeight => (fontWeights.lookup (asciiLower value)).map (hyphenated "font")
  | lineHeight => (lineHeightName? value).map (hyphenated "leading")
  | letterSpacing => (letterSpacingName? value).map (hyphenated "tracking")
  | spacing stem => spacingClass? stem value
  | sizing stem =>
    match sizeName? stem value with
    | some name => some (hyphenated stem name)
    | none => (fractionClass? stem value).or (spacingClass? stem value)
  | maxWidth => (maxWidthName? value).map (hyphenated "max-w")
  | radius =>
    if trimmed value == "50%" then some "rounded-full"
    else ((pixelsOf? value).bind (radii.lookup ·)).map ("rounded" ++ ·)
  | borderWidth => ((pixelsOf? value).bind (borderWidths.lookup ·)).map ("border" ++ ·)
  | shadow => if sameIgnoringCase value "none" then some "shadow-none" else none
  | opacity => (opacityName? value).map (hyphenated "opacity")
  | level => levelClass? value
  | flex => (flexName? value).map (hyphenated "flex")
  | toggle stem =>
    match thousandths? (trim value.toList) with
    | some 1000 => some stem
    | some 0 => some (hyphenated stem "0")
    | _ => none
  | tracks stem => (trackName? value).map (hyphenated stem)
  | keywords _ classes => classes.lookup (asciiLower value)

/-- What stands in front of the value in a class with brackets. -/
def opening : Rule → String
  | color stem | spacing stem | sizing stem | toggle stem | tracks stem => stem ++ "-["
  | fontSize => "text-["
  | fontWeight => "font-["
  | lineHeight => "leading-["
  | letterSpacing => "tracking-["
  | maxWidth => "max-w-["
  | radius => "rounded-["
  | borderWidth => "border-["
  | shadow => "shadow-["
  | opacity => "opacity-["
  | level => "z-["
  | flex => "flex-["
  | keywords property _ => "[" ++ property ++ ":"

/-- The class of any value, in brackets, with underscores for spaces. -/
def bracketed (value : String) (rule : Rule) : String :=
  rule.opening ++ String.ofList (value.toList.map (fun c => if c == ' ' then '_' else c)) ++ "]"

/-- The class of a value. -/
def classOf (value : String) (rule : Rule) : String :=
  (rule.named? value).getD (rule.bracketed value)

end Rule

/-- A value without the mark `!important` at its end, and whether it had one. -/
def splitMark (value : List Char) : Bool × List Char :=
  match dropEnd? "!important".toList value with
  | some rest => (true, dropBlankEnd rest)
  | none => (false, value)

/-- The class of a value for a property. There is none for a property without rule or for an empty
value. -/
def utilityClass? (property value : String) : Option String :=
  let (important, plain) := splitMark (trim value.toList)
  if plain.isEmpty then none
  else
    (rule? (kebabCase (trimmed property))).map fun rule =>
      (if important then "!" else "") ++ rule.classOf (String.ofList plain)

/-- The class of a declaration. -/
def Declaration.utilityClass? (d : Declaration) : Option String :=
  Style.utilityClass? d.property d.value

/-- Declarations as utility classes, where they have any. -/
structure Mapping where
  classes : List String
  /-- The declarations without a class. -/
  unmapped : List Declaration
  deriving DecidableEq, Repr

def mapDeclarations (declarations : List Declaration) : Mapping :=
  ⟨declarations.filterMap Declaration.utilityClass?,
    declarations.filter (fun d => d.utilityClass?.isNone)⟩

end MarkupEdit.Style
