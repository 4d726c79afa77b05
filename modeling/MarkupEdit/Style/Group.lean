/-!
# Conflict groups

Groups of utility classes that exclude each other: an element carries one padding, one font size,
one colour of text.

* `ConflictGroup`: the classes of a group, by name or by the stem they start with.
* `conflictGroups`: all groups.
* `conflictGroup?`: the group with a name.
-/

namespace MarkupEdit.Style

/-- The place of a class in the canonical order. -/
inductive Category where
  /-- Display, position, flex and grid. -/
  | layout
  /-- Spacing and sizing. -/
  | boxModel
  /-- Fonts and the setting of text. -/
  | typography
  /-- Colours. -/
  | color
  /-- Borders, corners, shadows, opacity. -/
  | decoration
  /-- All other classes. -/
  | misc
  deriving DecidableEq, Repr

namespace Category

def all : List Category := [layout, boxModel, typography, color, decoration, misc]

def name : Category → String
  | layout => "layout"
  | boxModel => "box_model"
  | typography => "typography"
  | color => "color"
  | decoration => "decoration"
  | misc => "misc"

def ofName? (s : String) : Option Category := all.find? (fun category => category.name == s)

/-- The number of categories in front of this one. -/
def rank : Category → Nat
  | layout => 0
  | boxModel => 1
  | typography => 2
  | color => 3
  | decoration => 4
  | misc => 5

end Category

/-- Classes of which an element carries one. -/
structure ConflictGroup where
  name : String
  category : Category
  /-- Classes that belong to the group as they are. -/
  members : List String := []
  /-- Starts of classes that belong to the group with any value behind them. -/
  stems : List String := []
  /-- Names of the narrower groups that a class of this group replaces too. -/
  covers : List String := []
  deriving DecidableEq, Repr

/-- Layout: display, position, flex and grid. -/
def layoutGroups : List ConflictGroup :=
  [ { name := "display", category := .layout,
      members := [
        "block", "inline-block", "inline", "flex", "inline-flex", "grid", "inline-grid", "hidden",
        "contents", "table", "flow-root", "list-item"] },
    { name := "position", category := .layout,
      members := ["static", "fixed", "absolute", "relative", "sticky"] },
    { name := "visibility", category := .layout, members := ["visible", "invisible", "collapse"] },
    { name := "inset", category := .layout,
      stems := ["inset-"],
      covers := ["inset_x", "inset_y", "top", "right", "bottom", "left"] },
    { name := "inset_x", category := .layout, stems := ["inset-x-"], covers := ["left", "right"] },
    { name := "inset_y", category := .layout, stems := ["inset-y-"], covers := ["top", "bottom"] },
    { name := "top", category := .layout, stems := ["top-"] },
    { name := "right", category := .layout, stems := ["right-"] },
    { name := "bottom", category := .layout, stems := ["bottom-"] },
    { name := "left", category := .layout, stems := ["left-"] },
    { name := "z_index", category := .layout, stems := ["z-"] },
    { name := "flex_direction", category := .layout,
      members := ["flex-row", "flex-row-reverse", "flex-col", "flex-col-reverse"] },
    { name := "flex_wrap", category := .layout,
      members := ["flex-wrap", "flex-nowrap", "flex-wrap-reverse"] },
    { name := "flex", category := .layout,
      members := ["flex-1", "flex-auto", "flex-initial", "flex-none"],
      stems := ["flex-"] },
    { name := "grow", category := .layout, members := ["grow"], stems := ["grow-"] },
    { name := "shrink", category := .layout, members := ["shrink"], stems := ["shrink-"] },
    { name := "basis", category := .layout, stems := ["basis-"] },
    { name := "justify_content", category := .layout, stems := ["justify-"] },
    { name := "justify_items", category := .layout, stems := ["justify-items-"] },
    { name := "justify_self", category := .layout, stems := ["justify-self-"] },
    { name := "align_items", category := .layout, stems := ["items-"] },
    { name := "align_self", category := .layout, stems := ["self-"] },
    { name := "align_content", category := .layout, stems := ["content-"] },
    { name := "grid_cols", category := .layout, stems := ["grid-cols-"] },
    { name := "grid_rows", category := .layout, stems := ["grid-rows-"] },
    { name := "col_span", category := .layout, stems := ["col-span-"] },
    { name := "row_span", category := .layout, stems := ["row-span-"] },
    { name := "order", category := .layout, stems := ["order-"] },
    { name := "overflow", category := .layout,
      stems := ["overflow-"],
      covers := ["overflow_x", "overflow_y"] },
    { name := "overflow_x", category := .layout, stems := ["overflow-x-"] },
    { name := "overflow_y", category := .layout, stems := ["overflow-y-"] },
    { name := "object_fit", category := .layout, stems := ["object-"] } ]

/-- Spacing and sizing. -/
def boxModelGroups : List ConflictGroup :=
  [ { name := "padding", category := .boxModel,
      stems := ["p-"],
      covers := [
        "padding_x", "padding_y", "padding_top", "padding_right", "padding_bottom",
        "padding_left"] },
    { name := "padding_x", category := .boxModel,
      stems := ["px-"],
      covers := ["padding_right", "padding_left"] },
    { name := "padding_y", category := .boxModel,
      stems := ["py-"],
      covers := ["padding_top", "padding_bottom"] },
    { name := "padding_top", category := .boxModel, stems := ["pt-"] },
    { name := "padding_right", category := .boxModel, stems := ["pr-"] },
    { name := "padding_bottom", category := .boxModel, stems := ["pb-"] },
    { name := "padding_left", category := .boxModel, stems := ["pl-"] },
    { name := "margin", category := .boxModel,
      stems := ["m-"],
      covers := [
        "margin_x", "margin_y", "margin_top", "margin_right", "margin_bottom", "margin_left"] },
    { name := "margin_x", category := .boxModel,
      stems := ["mx-"],
      covers := ["margin_right", "margin_left"] },
    { name := "margin_y", category := .boxModel,
      stems := ["my-"],
      covers := ["margin_top", "margin_bottom"] },
    { name := "margin_top", category := .boxModel, stems := ["mt-"] },
    { name := "margin_right", category := .boxModel, stems := ["mr-"] },
    { name := "margin_bottom", category := .boxModel, stems := ["mb-"] },
    { name := "margin_left", category := .boxModel, stems := ["ml-"] },
    { name := "gap", category := .boxModel, stems := ["gap-"], covers := ["gap_x", "gap_y"] },
    { name := "gap_x", category := .boxModel, stems := ["gap-x-"] },
    { name := "gap_y", category := .boxModel, stems := ["gap-y-"] },
    { name := "size", category := .boxModel, stems := ["size-"], covers := ["width", "height"] },
    { name := "width", category := .boxModel, stems := ["w-"] },
    { name := "min_width", category := .boxModel, stems := ["min-w-"] },
    { name := "max_width", category := .boxModel, stems := ["max-w-"] },
    { name := "height", category := .boxModel, stems := ["h-"] },
    { name := "min_height", category := .boxModel, stems := ["min-h-"] },
    { name := "max_height", category := .boxModel, stems := ["max-h-"] },
    { name := "aspect", category := .boxModel, stems := ["aspect-"] } ]

/-- Fonts and the setting of text. -/
def typographyGroups : List ConflictGroup :=
  [ { name := "font_size", category := .typography,
      members := [
        "text-xs", "text-sm", "text-base", "text-lg", "text-xl", "text-2xl", "text-3xl",
        "text-4xl", "text-5xl", "text-6xl", "text-7xl", "text-8xl", "text-9xl"] },
    { name := "font_weight", category := .typography,
      members := [
        "font-thin", "font-extralight", "font-light", "font-normal", "font-medium",
        "font-semibold", "font-bold", "font-extrabold", "font-black"] },
    { name := "font_family", category := .typography, stems := ["font-"] },
    { name := "font_style", category := .typography, members := ["italic", "not-italic"] },
    { name := "text_align", category := .typography,
      members := [
        "text-left", "text-center", "text-right", "text-justify", "text-start", "text-end"] },
    { name := "text_transform", category := .typography,
      members := ["uppercase", "lowercase", "capitalize", "normal-case"] },
    { name := "text_overflow", category := .typography,
      members := ["truncate", "text-ellipsis", "text-clip"] },
    { name := "line_height", category := .typography, stems := ["leading-"] },
    { name := "letter_spacing", category := .typography, stems := ["tracking-"] },
    { name := "whitespace", category := .typography, stems := ["whitespace-"] },
    { name := "text_wrap", category := .typography,
      members := ["text-wrap", "text-nowrap", "text-balance", "text-pretty"] } ]

/-- Colours of text, background and borders. -/
def colorGroups : List ConflictGroup :=
  [ { name := "text_color", category := .color, stems := ["text-"] },
    { name := "background_color", category := .color, stems := ["bg-"] },
    { name := "border_color", category := .color,
      stems := ["border-"],
      covers := [
        "border_color_x", "border_color_y", "border_color_t", "border_color_r", "border_color_b",
        "border_color_l"] },
    { name := "border_color_x", category := .color,
      covers := ["border_color_r", "border_color_l"] },
    { name := "border_color_y", category := .color,
      covers := ["border_color_t", "border_color_b"] },
    { name := "border_color_t", category := .color },
    { name := "border_color_r", category := .color },
    { name := "border_color_b", category := .color },
    { name := "border_color_l", category := .color } ]

/-- Lines, borders, corners, shadows and backgrounds. -/
def decorationGroups : List ConflictGroup :=
  [ { name := "text_decoration", category := .decoration,
      members := ["underline", "overline", "line-through", "no-underline"] },
    { name := "border_width", category := .decoration,
      members := ["border", "border-0", "border-2", "border-4", "border-8"],
      covers := [
        "border_width_x", "border_width_y", "border_width_t", "border_width_r", "border_width_b",
        "border_width_l"] },
    { name := "border_width_x", category := .decoration,
      members := ["border-x"],
      stems := ["border-x-"],
      covers := ["border_width_r", "border_width_l"] },
    { name := "border_width_y", category := .decoration,
      members := ["border-y"],
      stems := ["border-y-"],
      covers := ["border_width_t", "border_width_b"] },
    { name := "border_width_t", category := .decoration,
      members := ["border-t"],
      stems := ["border-t-"] },
    { name := "border_width_r", category := .decoration,
      members := ["border-r"],
      stems := ["border-r-"] },
    { name := "border_width_b", category := .decoration,
      members := ["border-b"],
      stems := ["border-b-"] },
    { name := "border_width_l", category := .decoration,
      members := ["border-l"],
      stems := ["border-l-"] },
    { name := "border_collapse", category := .decoration,
      members := ["border-collapse", "border-separate"] },
    { name := "border_spacing", category := .decoration, stems := ["border-spacing-"] },
    { name := "border_style", category := .decoration,
      members := [
        "border-solid", "border-dashed", "border-dotted", "border-double", "border-hidden",
        "border-none"] },
    { name := "rounded", category := .decoration,
      members := ["rounded"],
      stems := ["rounded-"],
      covers := [
        "rounded_t", "rounded_r", "rounded_b", "rounded_l", "rounded_tl", "rounded_tr",
        "rounded_br", "rounded_bl"] },
    { name := "rounded_t", category := .decoration,
      members := ["rounded-t"],
      stems := ["rounded-t-"],
      covers := ["rounded_tl", "rounded_tr"] },
    { name := "rounded_r", category := .decoration,
      members := ["rounded-r"],
      stems := ["rounded-r-"],
      covers := ["rounded_tr", "rounded_br"] },
    { name := "rounded_b", category := .decoration,
      members := ["rounded-b"],
      stems := ["rounded-b-"],
      covers := ["rounded_br", "rounded_bl"] },
    { name := "rounded_l", category := .decoration,
      members := ["rounded-l"],
      stems := ["rounded-l-"],
      covers := ["rounded_tl", "rounded_bl"] },
    { name := "rounded_tl", category := .decoration,
      members := ["rounded-tl"],
      stems := ["rounded-tl-"] },
    { name := "rounded_tr", category := .decoration,
      members := ["rounded-tr"],
      stems := ["rounded-tr-"] },
    { name := "rounded_br", category := .decoration,
      members := ["rounded-br"],
      stems := ["rounded-br-"] },
    { name := "rounded_bl", category := .decoration,
      members := ["rounded-bl"],
      stems := ["rounded-bl-"] },
    { name := "shadow", category := .decoration, members := ["shadow"], stems := ["shadow-"] },
    { name := "opacity", category := .decoration, stems := ["opacity-"] },
    { name := "background_size", category := .decoration,
      members := ["bg-auto", "bg-cover", "bg-contain"] },
    { name := "background_position", category := .decoration,
      members := [
        "bg-center", "bg-top", "bg-bottom", "bg-left", "bg-right", "bg-left-top", "bg-left-bottom",
        "bg-right-top", "bg-right-bottom"] },
    { name := "background_repeat", category := .decoration,
      members := [
        "bg-repeat", "bg-no-repeat", "bg-repeat-x", "bg-repeat-y", "bg-repeat-round",
        "bg-repeat-space"] },
    { name := "background_attachment", category := .decoration,
      members := ["bg-fixed", "bg-local", "bg-scroll"] },
    { name := "background_image", category := .decoration,
      members := ["bg-none"],
      stems := ["bg-gradient-to-", "bg-linear-to-"] },
    { name := "background_clip", category := .decoration, stems := ["bg-clip-"] },
    { name := "background_origin", category := .decoration, stems := ["bg-origin-"] } ]

/-- Interaction, transitions and transforms. -/
def miscGroups : List ConflictGroup :=
  [ { name := "cursor", category := .misc, stems := ["cursor-"] },
    { name := "pointer_events", category := .misc, stems := ["pointer-events-"] },
    { name := "user_select", category := .misc, stems := ["select-"] },
    { name := "transition", category := .misc,
      members := ["transition"],
      stems := ["transition-"] },
    { name := "duration", category := .misc, stems := ["duration-"] },
    { name := "ease", category := .misc, stems := ["ease-"] },
    { name := "translate_x", category := .misc, stems := ["translate-x-"] },
    { name := "translate_y", category := .misc, stems := ["translate-y-"] },
    { name := "rotate", category := .misc, stems := ["rotate-"] },
    { name := "scale", category := .misc, stems := ["scale-"] } ]

/-- All groups, in the order of their categories. -/
def conflictGroups : List ConflictGroup :=
  layoutGroups ++ boxModelGroups ++ typographyGroups ++ colorGroups ++ decorationGroups
    ++ miscGroups

def conflictGroup? (name : String) : Option ConflictGroup :=
  conflictGroups.find? (fun group => group.name == name)

end MarkupEdit.Style
