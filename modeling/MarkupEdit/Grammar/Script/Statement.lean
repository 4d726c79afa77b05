import MarkupEdit.Grammar.Rule

/-!
# Programs and statements

What a program, a statement and the clauses inside of it look like, in the order in which a
reader tries them.
-/

namespace MarkupEdit.Grammar.Script

open Rule

/-- Programs, and what they take from other modules and give to them. -/
def moduleEntries : List Entry := [
  .rule "program" (all [opt (part "hash_bang_line"), many (part "statement")]),
  .lexeme "hash_bang_line" .hashBang,
  .rule "export_statement" (any [
    all [
      mark "export",
      any [
        all [mark "*", part "_from_clause"],
        all [part "namespace_export", part "_from_clause"],
        all [part "export_clause", part "_from_clause"],
        part "export_clause"],
      part "_semicolon"],
    all [
      many (field "decorator" (part "decorator")),
      mark "export",
      any [
        field "declaration" (part "declaration"),
        all [
          mark "default",
          any [
            field "declaration" (part "declaration"),
            all [field "value" (part "expression"), part "_semicolon"]]]]],
    all [
      mark "export", mark "type", part "export_clause", opt (part "_from_clause"),
      part "_semicolon"],
    all [mark "export", mark "import", part "import_alias"],
    all [mark "export", mark "=", part "expression", part "_semicolon"],
    all [mark "export", mark "as", mark "namespace", part "identifier", part "_semicolon"]]),
  .rule "namespace_export" (all [mark "*", mark "as", part "_module_export_name"]),
  .rule "export_clause" (all [
    mark "\x7b", opt (commas (part "export_specifier")), opt (mark ","), mark "\x7d"]),
  .rule "export_specifier" (all [
    opt (marks ["type", "typeof"]),
    field "name" (part "_module_export_name"),
    opt (all [mark "as", field "alias" (part "_module_export_name")])]),
  .rule "_module_export_name" (any [part "identifier", part "string"]),
  .rule "declaration" (any [
    part "function_declaration",
    part "generator_function_declaration",
    part "class_declaration",
    part "lexical_declaration",
    part "variable_declaration",
    part "function_signature",
    part "abstract_class_declaration",
    part "module",
    tight "declare" (part "internal_module"),
    part "type_alias_declaration",
    part "enum_declaration",
    part "interface_declaration",
    part "import_alias",
    part "ambient_declaration"]),
  .rule "import" (mark "import"),
  .rule "import_statement" (all [
    mark "import",
    opt (marks ["type", "typeof"]),
    any [
      all [part "import_clause", part "_from_clause"],
      part "import_require_clause",
      field "source" (part "string")],
    opt (part "import_attribute"),
    part "_semicolon"]),
  .rule "import_clause" (any [
    part "namespace_import",
    part "named_imports",
    all [
      part "_import_identifier",
      opt (all [mark ",", any [part "namespace_import", part "named_imports"]])]]),
  .rule "_from_clause" (all [mark "from", field "source" (part "string")]),
  .rule "namespace_import" (all [mark "*", mark "as", part "identifier"]),
  .rule "named_imports" (all [
    mark "\x7b", opt (commas (part "import_specifier")), opt (mark ","), mark "\x7d"]),
  .rule "import_specifier" (all [
    opt (marks ["type", "typeof"]),
    any [
      field "name" (part "_import_identifier"),
      all [
        field "name" (any [part "_module_export_name", titled "identifier" (mark "type")]),
        mark "as",
        field "alias" (part "_import_identifier")]]]),
  .rule "import_attribute" (all [mark "with", part "object"])]

/-- Statements, declarations of variables, and the clauses of a statement. -/
def statementEntries : List Entry := [
  .rule "statement" (parts [
    "export_statement", "import_statement", "debugger_statement", "expression_statement",
    "declaration", "statement_block", "if_statement", "switch_statement", "for_statement",
    "for_in_statement", "while_statement", "do_statement", "try_statement", "with_statement",
    "break_statement", "continue_statement", "return_statement", "throw_statement",
    "empty_statement", "labeled_statement"]),
  .rule "expression_statement" (all [part "_expressions", part "_semicolon"]),
  .rule "variable_declaration" (all [
    mark "var", commas (part "variable_declarator"), part "_semicolon"]),
  .rule "lexical_declaration" (all [
    field "kind" (marks ["let", "const"]), commas (part "variable_declarator"),
    part "_semicolon"]),
  .rule "variable_declarator" (any [
    all [
      field "name" (any [part "identifier", part "_destructuring_pattern"]),
      field "type" (opt (part "type_annotation")),
      opt (part "_initializer")],
    tight "declare" (all [
      field "name" (part "identifier"), mark "!", field "type" (part "type_annotation")])]),
  .rule "statement_block" (rightward (all [
    mark "\x7b", many (part "statement"), mark "\x7d", opt (part "_automatic_semicolon")])),
  .rule "else_clause" (all [mark "else", part "statement"]),
  .rule "if_statement" (rightward (all [
    mark "if",
    field "condition" (part "parenthesized_expression"),
    field "consequence" (part "statement"),
    opt (field "alternative" (part "else_clause"))])),
  .rule "switch_statement" (all [
    mark "switch",
    field "value" (part "parenthesized_expression"),
    field "body" (part "switch_body")]),
  .rule "for_statement" (all [
    mark "for",
    mark "(",
    any [
      field "initializer" (any [part "lexical_declaration", part "variable_declaration"]),
      all [field "initializer" (part "_expressions"), mark ";"],
      field "initializer" (part "empty_statement")],
    field "condition" (any [all [part "_expressions", mark ";"], part "empty_statement"]),
    field "increment" (opt (part "_expressions")),
    mark ")",
    field "body" (part "statement")]),
  .rule "for_in_statement" (all [
    mark "for", opt (mark "await"), part "_for_header", field "body" (part "statement")]),
  .rule "_for_header" (all [
    mark "(",
    any [
      field "left" (any [part "_lhs_expression", part "parenthesized_expression"]),
      all [
        field "kind" (mark "var"),
        field "left" (any [part "identifier", part "_destructuring_pattern"]),
        opt (part "_initializer")],
      all [
        field "kind" (marks ["let", "const"]),
        field "left" (any [part "identifier", part "_destructuring_pattern"]),
        opt (part "_automatic_semicolon")]],
    field "operator" (marks ["in", "of"]),
    field "right" (part "_expressions"),
    mark ")"]),
  .rule "while_statement" (all [
    mark "while",
    field "condition" (part "parenthesized_expression"),
    field "body" (part "statement")]),
  .rule "do_statement" (rightward (all [
    mark "do",
    field "body" (part "statement"),
    mark "while",
    field "condition" (part "parenthesized_expression"),
    opt (part "_semicolon")])),
  .rule "try_statement" (all [
    mark "try",
    field "body" (part "statement_block"),
    opt (field "handler" (part "catch_clause")),
    opt (field "finalizer" (part "finally_clause"))]),
  .rule "with_statement" (all [
    mark "with",
    field "object" (part "parenthesized_expression"),
    field "body" (part "statement")]),
  .rule "break_statement" (all [
    mark "break",
    field "label" (opt (titled "statement_identifier" (part "identifier"))),
    part "_semicolon"]),
  .rule "continue_statement" (all [
    mark "continue",
    field "label" (opt (titled "statement_identifier" (part "identifier"))),
    part "_semicolon"]),
  .rule "debugger_statement" (all [mark "debugger", part "_semicolon"]),
  .rule "return_statement" (all [mark "return", opt (part "_expressions"), part "_semicolon"]),
  .rule "throw_statement" (all [mark "throw", part "_expressions", part "_semicolon"]),
  .rule "empty_statement" (mark ";"),
  .rule "labeled_statement" (favour (-1) (all [
    field "label" (titled "statement_identifier" (any [
      part "identifier", part "_reserved_identifier"])),
    mark ":",
    field "body" (part "statement")])),
  .rule "switch_body" (all [
    mark "\x7b",
    many (any [part "switch_case", part "switch_default"]),
    mark "\x7d"]),
  .rule "switch_case" (all [
    mark "case", field "value" (part "_expressions"), mark ":",
    field "body" (many (part "statement"))]),
  .rule "switch_default" (all [mark "default", mark ":", field "body" (many (part "statement"))]),
  .rule "catch_clause" (all [
    mark "catch",
    opt (all [
      mark "(",
      field "parameter" (any [part "identifier", part "_destructuring_pattern"]),
      opt (field "type" (part "type_annotation")),
      mark ")"]),
    field "body" (part "statement_block")]),
  .rule "finally_clause" (all [mark "finally", field "body" (part "statement_block")])]

end MarkupEdit.Grammar.Script
