import ScriptWasm.Number.Binary64

/-!
# Similar words

The Jaro similarity of two words: the share of characters that match, and of those the share that is
in the same order. Characters match if they are equal and not too far apart; every character matches
at most once.

The similarity is a double, and every step of the computation is rounded to one. So there are words
that would be exactly as similar as the bound asks for, and count as a little more similar.
-/

namespace ScriptWasm.Text

/-- The first position from `low` on, below `stop`, at which `c` stands and that is not taken. -/
def findMatch (c : Char) (low stop : Nat) (taken : List Nat) (word : List Char) : Option Nat :=
  (word.zipIdx.find? fun (d, j) ↦ low ≤ j && j < stop && c == d && !taken.contains j).map (·.2)

/-- The positions of a word that characters of another one match, in the order of those, with the
characters; `i` is the position of the first of them. -/
def matching (reach : Nat) (word : List Char) : Nat → List Nat → List Char → List Char × List Nat
  | _, taken, [] => ([], taken)
  | i, taken, c :: rest =>
    match findMatch c (i - reach) (i + reach + 1) taken word with
    | some j =>
      let (cs, taken) := matching reach word (i + 1) (j :: taken) rest
      (c :: cs, taken)
    | none => matching reach word (i + 1) taken rest

/-- The similarity of two words: the mean of three shares. -/
def similarity (a b : List Char) : Binary64 :=
  let reach := max a.length b.length / 2 - 1
  let (left, taken) := matching reach b 0 [] a
  let right := (b.zipIdx.filter fun (_, j) ↦ taken.contains j).map (·.1)
  let hits := left.length
  let swaps := ((left.zip right).filter fun (c, d) ↦ c != d).length / 2
  if hits = 0 then .zero
  else
    let share (n d : Nat) := Binary64.ofRatio n d
    let total := ((share hits a.length).add (share hits b.length)).add (share (hits - swaps) hits)
    total.div (.ofNat 3)

/-- Whether the similarity is more than seven tenths. -/
def isSimilar (x : Binary64) : Bool := (Binary64.ofRatio 7 10).magnitude < x.magnitude

/-- The most similar one of some words, the last one of several, if it is similar at all. -/
def mostSimilar? (word : List Char) (words : List String) : Option String :=
  let rate (w : String) : String × Binary64 := (w, similarity word w.toList)
  let better (best? : Option (String × Binary64)) (next : String × Binary64) :=
    match best? with
    | some best => if next.2.magnitude < best.2.magnitude then some best else some next
    | none => some next
  (((words.map rate).filter fun r ↦ isSimilar r.2).foldl better none).map (·.1)

end ScriptWasm.Text
