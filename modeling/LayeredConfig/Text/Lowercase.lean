import LayeredConfig.Text.CaseTable

/-!
# Lower case

Each capital becomes its small letter. Two capitals need more: `İ` becomes an `i` and a dot above, and a
capital sigma at the end of a word becomes `ς`, not `σ`.
-/

namespace LayeredConfig.Text

/-- The small letters for one character, wherever it stands. -/
def lowerChar (c : Char) : List Char :=
  let code := c.toNat
  if c = 'İ' then ['i', '\u0307']
  else
    match caseRuns.find? fun run =>
        run.first ≤ code && code ≤ run.last && (code - run.first) % run.step == 0 with
    | some run => [Char.ofNat (code + run.offset).toNat]
    | none => [c]

/-- The first character that a word-end search does not step over has letter case. -/
def startsCased (cs : List Char) : Bool :=
  match cs.dropWhile fun c => inRanges caseIgnorableRanges c.toNat with
  | [] => false
  | c :: _ => inRanges casedRanges c.toNat

/-- The text in lower case, where `before` is what stands in front of it, nearest character first. -/
def lowercaseAfter (before : List Char) : List Char → List Char
  | [] => []
  | c :: rest =>
    let small :=
      if c = 'Σ' then [if startsCased before && !startsCased rest then 'ς' else 'σ'] else lowerChar c
    small ++ lowercaseAfter (c :: before) rest

def lowercase (cs : List Char) : List Char := lowercaseAfter [] cs

end LayeredConfig.Text
