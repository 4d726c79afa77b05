import MarkupEdit.Grammar.Rule

/-!
# Markup

Elements, their tags and attributes, and the text between the tags.
-/

namespace MarkupEdit.Grammar.Script

open Rule

/-- Elements and what stands between their tags. -/
def elementEntries : List Entry := [
  .rule "_jsx_element" (any [part "jsx_element", part "jsx_self_closing_element"]),
  .rule "jsx_element" (all [
    field "open_tag" (part "jsx_opening_element"),
    many (part "_jsx_child"),
    field "close_tag" (part "jsx_closing_element")]),
  .lexeme "html_character_reference" .characterReference,
  .rule "jsx_expression" (all [
    mark "\x7b",
    opt (parts ["expression", "sequence_expression", "spread_element"]),
    mark "\x7d"]),
  .rule "_jsx_child" (parts [
    "jsx_text", "html_character_reference", "_jsx_element", "jsx_expression"]),
  .rule "jsx_opening_element" (favour (-1) (all [part "_jsx_start_opening_element", mark ">"])),
  .lexeme "jsx_identifier" .hyphenated,
  .rule "_jsx_identifier" (any [titled "identifier" (part "jsx_identifier"), part "identifier"])]

/-- Tags and attributes. -/
def tagEntries : List Entry := [
  .rule "jsx_namespace_name" (all [part "_jsx_identifier", mark ":", part "_jsx_identifier"]),
  .rule "_jsx_element_name" (any [
    part "_jsx_identifier",
    titled "member_expression" (part "nested_identifier"),
    part "jsx_namespace_name"]),
  .rule "jsx_closing_element" (all [
    mark "</",
    opt (field "name" (part "_jsx_element_name")),
    mark ">"]),
  .rule "jsx_self_closing_element" (favour (-1) (all [
    part "_jsx_start_opening_element", mark "/>"])),
  .rule "_jsx_attribute" (any [part "jsx_attribute", part "jsx_expression"]),
  .rule "_jsx_attribute_name" (any [
    titled "property_identifier" (part "_jsx_identifier"),
    part "jsx_namespace_name"]),
  .rule "jsx_attribute" (all [
    part "_jsx_attribute_name",
    opt (all [mark "=", part "_jsx_attribute_value"])]),
  .rule "_jsx_string" (any [
    all [
      mark "\"",
      many (any [
        titled "string_fragment" (part "unescaped_double_jsx_string_fragment"),
        part "html_character_reference"]),
      mark "\""],
    all [
      mark "'",
      many (any [
        titled "string_fragment" (part "unescaped_single_jsx_string_fragment"),
        part "html_character_reference"]),
      mark "'"]]),
  .lexeme "unescaped_double_jsx_string_fragment" (.attributePiece '"'),
  .lexeme "unescaped_single_jsx_string_fragment" (.attributePiece '\''),
  .rule "_jsx_attribute_value" (any [
    titled "string" (part "_jsx_string"), part "jsx_expression", part "_jsx_element"])]

/-- What the tags have in common that open an element. -/
def openTagEntries : List Entry := [
  .rule "_jsx_start_opening_element" (all [
    mark "<",
    opt (all [
      any [
        field "name" (any [part "_jsx_identifier", part "jsx_namespace_name"]),
        all [
          field "name" (any [
            part "identifier",
            titled "member_expression" (part "nested_identifier")]),
          field "type_arguments" (opt (part "type_arguments"))]],
      many (field "attribute" (part "_jsx_attribute"))])])]

end MarkupEdit.Grammar.Script
