import TierVm.Text.CaseTable

/-!
# Lowercase text

The lowercase of a text replaces every character by its lowercase form.  Two characters need more
than the table: the capital I with a dot becomes two characters, and a capital sigma at the end of
a word becomes the final sigma.
-/

namespace TierVm.Text

/-- Letters that have case. -/
def isCased (c : Char) : Bool := inRanges casedRanges c

/-- Characters that the rule for a final sigma looks through. -/
def isCaseIgnorable (c : Char) : Bool := inRanges caseIgnorableRanges c

/-- The lowercase form of one character by the table. -/
def lowerSimple (c : Char) : Char :=
  match rowOf? (fun r => (r.1, r.2.1)) lowercaseRanges c.toNat with
  | some (first, _, step, delta) =>
    if (c.toNat - first) % step = 0 then Char.ofNat (c.toNat + delta).toNat else c
  | none => c

/-- Whether the nearest character that is not ignorable has case. -/
def reachesCased (cs : List Char) : Bool :=
  match cs.dropWhile isCaseIgnorable with
  | c :: _ => isCased c
  | [] => false

/-- The lowercase form of one character between the characters in front of it, nearest first, and
those behind it. -/
def lowerAt (before : List Char) (c : Char) (rest : List Char) : List Char :=
  if c = 'Σ' then [if reachesCased before && !reachesCased rest then 'ς' else 'σ']
  else if c = 'İ' then ['i', Char.ofNat 0x307]
  else [lowerSimple c]

/-- The lowercase of a text behind the characters `before`, nearest first; `done` is the lowercase
so far, in reverse. -/
def lowerFrom : List Char → List Char → List Char → List Char
  | _, done, [] => done.reverse
  | before, done, c :: rest =>
    lowerFrom (c :: before) ((lowerAt before c rest).reverse ++ done) rest

/-- The lowercase of a text. -/
def lower (s : String) : String := String.ofList (lowerFrom [] [] s.toList)

end TierVm.Text
