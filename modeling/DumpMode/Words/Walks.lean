import DumpMode.Words.Scan

/-!
# Families of walks

A walk over the matches of a text can be asked for matches, copied and put back to the start, and
its copies walk on by themselves. A `Move` is one thing that happens in a family of walks, each of
which goes by its number in the family. How a single member answers a request is left open, so
that a family of cursors into a list of matches, which know nothing of a text, plays by the same
rules as a family of walks.
-/

namespace DumpMode.Words

/-- What a walk can be asked for: the next match, the match behind the next `k` ones, all further
matches, or to go back to the start. The number of further matches is found out by a copy. -/
inductive Request where
  | next
  | nth (k : Nat)
  | drain
  | count
  | reset
deriving DecidableEq, Repr

inductive Answer where
  | found (m : Option Match)
  | all (ms : List Match)
  | number (n : Nat)
  | done
deriving DecidableEq, Repr

def Scan.answer (s : Scan) : Request → Answer × Scan
  | .next => s.next.map .found id
  | .nth k => (s.nth k).map .found id
  | .drain => s.drain.map .all id
  | .count => (.number s.drain.1.length, s)
  | .reset => (.done, s.reset)

/-- The answer of a cursor that has passed the first `k` of some matches, and how many it has
passed behind it. At the end it stays where it is until it is put back. -/
def cursorAnswer (found : List Match) (k : Nat) : Request → Answer × Nat
  | .next => (.found found[k]?, min (k + 1) found.length)
  | .nth n => (.found found[k + n]?, min (k + n + 1) found.length)
  | .drain => (.all (found.drop k), found.length)
  | .count => (.number (found.length - k), k)
  | .reset => (.done, 0)

inductive Move where
  | ask (i : Nat) (r : Request)
  /-- A copy of a member joins the family, with the next free number. -/
  | copy (i : Nat)
deriving DecidableEq, Repr

section Family

variable {σ : Type} (answer : σ → Request → Answer × σ)

/-- The answer to a move, and the family behind it; without the member, nothing happens. -/
def Move.play (family : List σ) : Move → Option Answer × List σ
  | .ask i r =>
    match family[i]? with
    | some s => (answer s r).map some (family.set i)
    | none => (none, family)
  | .copy i =>
    match family[i]? with
    | some s => (some .done, family ++ [s])
    | none => (none, family)

def playAll (family : List σ) : List Move → List (Option Answer) × List σ
  | [] => ([], family)
  | move :: moves =>
    let (a, family) := move.play answer family
    (playAll family moves).map (a :: ·) id

end Family

end DumpMode.Words
