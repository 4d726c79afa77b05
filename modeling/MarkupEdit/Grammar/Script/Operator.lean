import MarkupEdit.Grammar.Rule

/-!
# Operators

Expressions that are made of others: calls, members, operators and assignments.
-/

namespace MarkupEdit.Grammar.Script

open Rule

/-- Calls, members and assignments. -/
def callEntries : List Entry := [
  .rule "optional_chain" (mark "?."),
  .rule "call_expression" (any [
    tight "call" (all [
      field "function" (any [part "expression", part "import"]),
      field "type_arguments" (opt (part "type_arguments")),
      field "arguments" (part "arguments")]),
    tight "template_call" (all [
      field "function" (any [part "primary_expression", part "new_expression"]),
      field "arguments" (part "template_string")]),
    tight "member" (all [
      field "function" (part "primary_expression"),
      mark "?.",
      field "type_arguments" (opt (part "type_arguments")),
      field "arguments" (part "arguments")])]),
  .rule "new_expression" (tightRight "new" (all [
    mark "new",
    field "constructor" (part "primary_expression"),
    field "type_arguments" (opt (part "type_arguments")),
    field "arguments" (opt (part "arguments"))])),
  .rule "await_expression" (tight "unary_void" (all [mark "await", part "expression"])),
  .rule "member_expression" (tight "member" (all [
    field "object" (parts ["expression", "primary_expression", "import"]),
    any [mark ".", field "optional_chain" (part "optional_chain")],
    field "property" (any [
      part "private_property_identifier",
      titled "property_identifier" (part "identifier")])])),
  .rule "subscript_expression" (tightRight "member" (all [
    field "object" (any [part "expression", part "primary_expression"]),
    opt (field "optional_chain" (part "optional_chain")),
    mark "[",
    field "index" (part "_expressions"),
    mark "]"])),
  .rule "_lhs_expression" (any [
    part "member_expression",
    part "subscript_expression",
    part "_identifier",
    titled "identifier" (part "_reserved_identifier"),
    part "_destructuring_pattern",
    part "non_null_expression"]),
  .rule "assignment_expression" (tightRight "assign" (all [
    opt (mark "using"),
    field "left" (any [part "parenthesized_expression", part "_lhs_expression"]),
    mark "=",
    field "right" (part "expression")])),
  .rule "_augmented_assignment_lhs" (any [
    part "member_expression",
    part "subscript_expression",
    titled "identifier" (part "_reserved_identifier"),
    part "identifier",
    part "parenthesized_expression",
    part "non_null_expression"]),
  .rule "augmented_assignment_expression" (tightRight "assign" (all [
    field "left" (part "_augmented_assignment_lhs"),
    field "operator" (marks [
      "+=", "-=", "*=", "/=", "%=", "^=", "&=", "|=", ">>=", ">>>=", "<<=", "**=", "&&=", "||=",
      "??="]),
    field "right" (part "expression")])),
  .rule "_initializer" (all [mark "=", field "value" (part "expression")]),
  .rule "_destructuring_pattern" (any [part "object_pattern", part "array_pattern"]),
  .rule "spread_element" (all [mark "...", part "expression"])]

/-- Operators in front of, behind and between values. -/
def operatorEntries : List Entry := [
  .rule "ternary_expression" (tightRight "ternary" (all [
    field "condition" (part "expression"),
    title ⟨"?", false⟩ (part "_ternary_qmark"),
    field "consequence" (part "expression"),
    mark ":",
    field "alternative" (part "expression")])),
  .rule "binary_expression" (any [
    tightLeft "logical_and" (all [
      field "left" (part "expression"), field "operator" (mark "&&"),
      field "right" (part "expression")]),
    tightLeft "logical_or" (all [
      field "left" (part "expression"), field "operator" (mark "||"),
      field "right" (part "expression")]),
    tightLeft "binary_shift" (all [
      field "left" (part "expression"), field "operator" (mark ">>"),
      field "right" (part "expression")]),
    tightLeft "binary_shift" (all [
      field "left" (part "expression"), field "operator" (mark ">>>"),
      field "right" (part "expression")]),
    tightLeft "binary_shift" (all [
      field "left" (part "expression"), field "operator" (mark "<<"),
      field "right" (part "expression")]),
    tightLeft "bitwise_and" (all [
      field "left" (part "expression"), field "operator" (mark "&"),
      field "right" (part "expression")]),
    tightLeft "bitwise_xor" (all [
      field "left" (part "expression"), field "operator" (mark "^"),
      field "right" (part "expression")]),
    tightLeft "bitwise_or" (all [
      field "left" (part "expression"), field "operator" (mark "|"),
      field "right" (part "expression")]),
    tightLeft "binary_plus" (all [
      field "left" (part "expression"), field "operator" (mark "+"),
      field "right" (part "expression")]),
    tightLeft "binary_plus" (all [
      field "left" (part "expression"), field "operator" (mark "-"),
      field "right" (part "expression")]),
    tightLeft "binary_times" (all [
      field "left" (part "expression"), field "operator" (mark "*"),
      field "right" (part "expression")]),
    tightLeft "binary_times" (all [
      field "left" (part "expression"), field "operator" (mark "/"),
      field "right" (part "expression")]),
    tightLeft "binary_times" (all [
      field "left" (part "expression"), field "operator" (mark "%"),
      field "right" (part "expression")]),
    tightRight "binary_exp" (all [
      field "left" (part "expression"), field "operator" (mark "**"),
      field "right" (part "expression")]),
    tightLeft "binary_relation" (all [
      field "left" (part "expression"), field "operator" (mark "<"),
      field "right" (part "expression")]),
    tightLeft "binary_relation" (all [
      field "left" (part "expression"), field "operator" (mark "<="),
      field "right" (part "expression")]),
    tightLeft "binary_equality" (all [
      field "left" (part "expression"), field "operator" (mark "=="),
      field "right" (part "expression")]),
    tightLeft "binary_equality" (all [
      field "left" (part "expression"), field "operator" (mark "==="),
      field "right" (part "expression")]),
    tightLeft "binary_equality" (all [
      field "left" (part "expression"), field "operator" (mark "!="),
      field "right" (part "expression")]),
    tightLeft "binary_equality" (all [
      field "left" (part "expression"), field "operator" (mark "!=="),
      field "right" (part "expression")]),
    tightLeft "binary_relation" (all [
      field "left" (part "expression"), field "operator" (mark ">="),
      field "right" (part "expression")]),
    tightLeft "binary_relation" (all [
      field "left" (part "expression"), field "operator" (mark ">"),
      field "right" (part "expression")]),
    tightLeft "ternary" (all [
      field "left" (part "expression"), field "operator" (mark "??"),
      field "right" (part "expression")]),
    tightLeft "binary_relation" (all [
      field "left" (part "expression"), field "operator" (mark "instanceof"),
      field "right" (part "expression")]),
    tightLeft "binary_relation" (all [
      field "left" (any [part "expression", part "private_property_identifier"]),
      field "operator" (mark "in"),
      field "right" (part "expression")])]),
  .rule "unary_expression" (tightLeft "unary_void" (all [
    field "operator" (marks ["!", "~", "-", "+", "typeof", "void", "delete"]),
    field "argument" (part "expression")])),
  .rule "update_expression" (leftward (any [
    all [field "argument" (part "expression"), field "operator" (marks ["++", "--"])],
    all [field "operator" (marks ["++", "--"]), field "argument" (part "expression")]])),
  .rule "sequence_expression" (rightward (commas (part "expression")))]

end MarkupEdit.Grammar.Script
