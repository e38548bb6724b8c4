/-!
# Cutting texts

Splitting at every occurrence of a character, at the first occurrence of a pattern, and cutting
after a number of bytes of the UTF-8 encoding.
-/

namespace Federation.Text

/-- The parts between the occurrences of `mark`; one more than there are occurrences. -/
def splitAtEach (mark : Char) : List Char → List (List Char)
  | [] => [[]]
  | c :: rest =>
    if c = mark then [] :: splitAtEach mark rest
    else
      match splitAtEach mark rest with
      | [] => [[c]]
      | part :: parts => (c :: part) :: parts

theorem splitAtEach_ne_nil (mark : Char) (text : List Char) : splitAtEach mark text ≠ [] := by
  cases text with
  | nil => simp [splitAtEach]
  | cons c rest =>
    simp only [splitAtEach]
    split
    · simp
    · split <;> simp

def splitOnce (mark : Char) : List Char → Option (List Char × List Char)
  | [] => none
  | c :: rest =>
    if c = mark then some ([], rest)
    else (splitOnce mark rest).map fun (before, after) => (c :: before, after)

theorem splitOnce_append {mark : Char} {before : List Char} (h : mark ∉ before)
    (after : List Char) : splitOnce mark (before ++ mark :: after) = some (before, after) := by
  induction before with
  | nil => simp [splitOnce]
  | cons c rest ih =>
    have hc : c ≠ mark := fun e => h (e ▸ List.mem_cons_self)
    simp [splitOnce, hc, ih fun hm => h (List.mem_cons_of_mem _ hm)]

def splitOnceAt (pattern : List Char) : List Char → Option (List Char × List Char)
  | [] => if pattern.isEmpty then some ([], []) else none
  | c :: rest =>
    if pattern.isPrefixOf (c :: rest) then some ([], (c :: rest).drop pattern.length)
    else (splitOnceAt pattern rest).map fun (before, after) => (c :: before, after)

/-- The first `n` bytes, if the text has as many and they end between two characters. -/
def takeBytes : Nat → List Char → Option (List Char)
  | 0, _ => some []
  | _ + 1, [] => none
  | n + 1, c :: rest =>
    if c.utf8Size ≤ n + 1 then (takeBytes (n + 1 - c.utf8Size) rest).map (c :: ·) else none
termination_by structural _ text => text

end Federation.Text
