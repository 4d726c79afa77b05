/-!
# Scales of the utility classes

The values of styles that have names among the utility classes. Magnitudes are whole numbers of
thousandths; keywords are in small letters.
-/

namespace MarkupEdit.Style

/-- Steps of spacing, in thousandths of a pixel. -/
def spacings : List (Int × String) :=
  [(0, "0"), (1000, "px"), (2000, "0.5"), (4000, "1"), (6000, "1.5"), (8000, "2"),
   (10000, "2.5"), (12000, "3"), (14000, "3.5"), (16000, "4"), (20000, "5"), (24000, "6"),
   (28000, "7"), (32000, "8"), (36000, "9"), (40000, "10"), (44000, "11"), (48000, "12"),
   (56000, "14"), (64000, "16"), (80000, "20"), (96000, "24"), (112000, "28"), (128000, "32"),
   (144000, "36"), (160000, "40"), (176000, "44"), (192000, "48"), (208000, "52"),
   (224000, "56"), (240000, "60"), (256000, "64"), (288000, "72"), (320000, "80"),
   (384000, "96")]

/-- Sizes of fonts, in thousandths of a pixel. -/
def fontSizes : List (Int × String) :=
  [(12000, "xs"), (14000, "sm"), (16000, "base"), (18000, "lg"), (20000, "xl"), (24000, "2xl"),
   (30000, "3xl"), (36000, "4xl"), (48000, "5xl"), (60000, "6xl"), (72000, "7xl"),
   (96000, "8xl"), (128000, "9xl")]

/-- Weights of fonts. -/
def fontWeights : List (String × String) :=
  [("100", "thin"), ("200", "extralight"), ("300", "light"), ("400", "normal"),
   ("normal", "normal"), ("500", "medium"), ("600", "semibold"), ("700", "bold"),
   ("bold", "bold"), ("800", "extrabold"), ("900", "black")]

/-- Heights of lines, in thousandths of the size of the font. -/
def lineRatios : List (Int × String) :=
  [(1000, "none"), (1250, "tight"), (1375, "snug"), (1500, "normal"), (1625, "relaxed"),
   (2000, "loose")]

/-- Heights of lines, in thousandths of a pixel. -/
def lineHeights : List (Int × String) :=
  [(12000, "3"), (16000, "4"), (20000, "5"), (24000, "6"), (28000, "7"), (32000, "8"),
   (36000, "9"), (40000, "10")]

/-- Spaces between letters, in thousandths of an em. -/
def letterSpacings : List (Int × String) :=
  [(-50, "tighter"), (-25, "tight"), (0, "normal"), (25, "wide"), (50, "wider"), (100, "widest")]

/-- What a radius, in thousandths of a pixel, adds to the class of rounded corners. -/
def radii : List (Int × String) :=
  [(0, "-none"), (2000, "-sm"), (4000, ""), (6000, "-md"), (8000, "-lg"), (12000, "-xl"),
   (16000, "-2xl"), (24000, "-3xl"), (9999000, "-full")]

/-- What a width, in thousandths of a pixel, adds to the class of borders. -/
def borderWidths : List (Int × String) :=
  [(0, "-0"), (1000, ""), (2000, "-2"), (4000, "-4"), (8000, "-8")]

/-- Greatest widths, in thousandths of a pixel. -/
def maxWidths : List (Int × String) :=
  [(320000, "xs"), (384000, "sm"), (448000, "md"), (512000, "lg"), (576000, "xl"),
   (672000, "2xl"), (768000, "3xl"), (896000, "4xl"), (1024000, "5xl"), (1152000, "6xl"),
   (1280000, "7xl")]

/-- Shares of the space, in thousandths of a percent. -/
def fractions : List (Int × String) :=
  [(20000, "1/5"), (25000, "1/4"), (40000, "2/5"), (50000, "1/2"), (60000, "3/5"),
   (75000, "3/4"), (80000, "4/5"), (100000, "full")]

/-- Opacities, in thousandths. -/
def opacities : List (Int × String) :=
  [(0, "0"), (50, "5"), (100, "10"), (150, "15"), (200, "20"), (250, "25"), (300, "30"),
   (350, "35"), (400, "40"), (450, "45"), (500, "50"), (550, "55"), (600, "60"), (650, "65"),
   (700, "70"), (750, "75"), (800, "80"), (850, "85"), (900, "90"), (950, "95"), (1000, "100")]

/-- Colours, in small letters. -/
def colors : List (String × String) :=
  [("transparent", "transparent"), ("currentcolor", "current"), ("inherit", "inherit"),
   ("#000", "black"), ("#000000", "black"), ("black", "black"), ("#fff", "white"),
   ("#ffffff", "white"), ("white", "white"), ("#f9fafb", "gray-50"), ("#f3f4f6", "gray-100"),
   ("#e5e7eb", "gray-200"), ("#d1d5db", "gray-300"), ("#9ca3af", "gray-400"),
   ("#6b7280", "gray-500"), ("#4b5563", "gray-600"), ("#374151", "gray-700"),
   ("#1f2937", "gray-800"), ("#111827", "gray-900"), ("#fee2e2", "red-100"),
   ("#ef4444", "red-500"), ("#dc2626", "red-600"), ("#b91c1c", "red-700"),
   ("#ffedd5", "orange-100"), ("#f97316", "orange-500"), ("#fef9c3", "yellow-100"),
   ("#eab308", "yellow-500"), ("#dcfce7", "green-100"), ("#22c55e", "green-500"),
   ("#16a34a", "green-600"), ("#dbeafe", "blue-100"), ("#3b82f6", "blue-500"),
   ("#2563eb", "blue-600"), ("#1d4ed8", "blue-700"), ("#e0e7ff", "indigo-100"),
   ("#6366f1", "indigo-500"), ("#4f46e5", "indigo-600"), ("#f3e8ff", "purple-100"),
   ("#a855f7", "purple-500"), ("#fce7f3", "pink-100"), ("#ec4899", "pink-500")]

/-- The levels of the stacking order. -/
def levels : List String := ["0", "10", "20", "30", "40", "50"]

/-- The pairs of the values that stand behind a stem in their classes. -/
def behind (stem : String) (values : List String) : List (String × String) :=
  values.map (fun value => (value, stem ++ "-" ++ value))

/-- The pairs of the values that are their own classes. -/
def asTheyAre (values : List String) : List (String × String) :=
  values.map (fun value => (value, value))

def textLines : List (String × String) :=
  asTheyAre ["underline", "overline", "line-through"] ++ [("none", "no-underline")]

def overflows : List String := ["auto", "hidden", "visible", "scroll", "clip"]

/-- The properties whose values are keywords, with the classes of those values. -/
def keywordTable : List (String × List (String × String)) :=
  [("display",
      asTheyAre ["block", "inline-block", "inline", "flex", "inline-flex", "grid", "inline-grid"]
        ++ [("none", "hidden")] ++ asTheyAre ["contents", "table", "flow-root", "list-item"]),
   ("position", asTheyAre ["static", "fixed", "absolute", "relative", "sticky"]),
   ("visibility", [("visible", "visible"), ("hidden", "invisible"), ("collapse", "collapse")]),
   ("overflow", behind "overflow" overflows),
   ("overflow-x", behind "overflow-x" overflows),
   ("overflow-y", behind "overflow-y" overflows),
   ("flex-direction",
      [("row", "flex-row"), ("row-reverse", "flex-row-reverse"), ("column", "flex-col"),
       ("column-reverse", "flex-col-reverse")]),
   ("flex-wrap", behind "flex" ["wrap", "nowrap", "wrap-reverse"]),
   ("justify-content",
      [("flex-start", "justify-start"), ("start", "justify-start"), ("flex-end", "justify-end"),
       ("end", "justify-end"), ("center", "justify-center"), ("space-between", "justify-between"),
       ("space-around", "justify-around"), ("space-evenly", "justify-evenly"),
       ("stretch", "justify-stretch")]),
   ("align-items",
      [("flex-start", "items-start"), ("start", "items-start"), ("flex-end", "items-end"),
       ("end", "items-end"), ("center", "items-center"), ("baseline", "items-baseline"),
       ("stretch", "items-stretch")]),
   ("align-self",
      [("auto", "self-auto"), ("flex-start", "self-start"), ("start", "self-start"),
       ("flex-end", "self-end"), ("end", "self-end"), ("center", "self-center"),
       ("baseline", "self-baseline"), ("stretch", "self-stretch")]),
   ("text-align", behind "text" ["left", "center", "right", "justify", "start", "end"]),
   ("font-style", [("italic", "italic"), ("normal", "not-italic")]),
   ("text-decoration", textLines),
   ("text-decoration-line", textLines),
   ("text-transform",
      asTheyAre ["uppercase", "lowercase", "capitalize"] ++ [("none", "normal-case")]),
   ("white-space",
      behind "whitespace" ["normal", "nowrap", "pre", "pre-line", "pre-wrap", "break-spaces"]),
   ("border-style", behind "border" ["solid", "dashed", "dotted", "double", "hidden", "none"]),
   ("pointer-events", behind "pointer-events" ["none", "auto"]),
   ("user-select", behind "select" ["none", "text", "all", "auto"]),
   ("cursor",
      behind "cursor" ["auto", "default", "pointer", "wait", "text", "move", "help", "not-allowed",
        "grab", "grabbing"]),
   ("object-fit", behind "object" ["contain", "cover", "fill", "none", "scale-down"])]

end MarkupEdit.Style
