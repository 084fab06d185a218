import LayeredConfig.Text.Split

/-!
# Texts with references

A reference stands between `$\x7b` and the next `\x7d`. A text is taken apart from left to right: what
stands before its first reference, the name in it, and the rest.
-/

namespace LayeredConfig

/-- The mark that a reference begins with. -/
def referenceMark : List Char := ['$', '\x7b']

inductive Template where
  | plain (text : List Char)
  /-- A reference begins, but does not end. -/
  | unclosed (before : List Char)
  | reference (before name : List Char) (rest : Template)
  deriving DecidableEq, Repr

theorem length_rest_lt {text before after name rest : List Char}
    (h : Text.cutAt referenceMark text = some (before, after))
    (hend : Text.cutAtChar '\x7d' after = some (name, rest)) : rest.length < text.length := by
  have hlength := Text.length_of_cutAt (List.cons_ne_nil _ _) h
  rw [Text.cutAtChar_eq_some hend, List.length_append, List.length_cons] at hlength
  omega

def Template.ofText (text : List Char) : Template :=
  match h : Text.cutAt referenceMark text with
  | none => .plain text
  | some (before, after) =>
    match hend : Text.cutAtChar '\x7d' after with
    | none => .unclosed before
    | some (name, rest) =>
      have : rest.length < text.length := length_rest_lt h hend
      .reference before name (.ofText rest)
termination_by text.length

def mentionsReference (text : String) : Bool := (Text.cutAt referenceMark text.toList).isSome

/-- Puts a text for each reference, the leftmost first. -/
def Template.expand {ε : Type} (lookup : List Char → Except ε String) (unclosed : ε) :
    Template → Except ε String
  | .plain text => .ok (String.ofList text)
  | .unclosed _ => .error unclosed
  | .reference before name rest => do
    let value ← lookup name
    let rest ← rest.expand lookup unclosed
    return String.ofList before ++ (value ++ rest)

end LayeredConfig
