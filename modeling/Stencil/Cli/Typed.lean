import Stencil.Text.Cluster
import Stencil.Token

/-!
# Typed Lines

A line as it was typed may hold backspaces, each of which takes back the cluster in
front of it: a letter together with its accents, a flag with both its letters. With
nothing in front of it a backspace does nothing.

How much there is to take back is kept as one byte for each cluster. Of a cluster
that has 256 bytes or more, what is taken back is therefore its last bytes only, as
many as are left when the size is divided by 256.

## Main definitions

* `Typed`: What is left of a line so far.
* `Typed.erase`: One cluster is taken back.
* `Typed.type`: One more cluster is typed, or a backspace.
* `typedLine`: What a typed line comes to.
-/

namespace Stencil

/-- The key that takes back what was typed last. -/
def backspace : Char := '\x08'

/-- What is left of a line so far: its characters, and the sizes of the clusters that
    can be taken back, both with the last one first. -/
structure Typed where
  chars : List Char
  sizes : List Nat
deriving Repr, DecidableEq

/-- The characters without the first ones that have this many bytes. -/
def dropBytes : Nat → List Char → List Char
  | _, [] => []
  | n, c :: cs => if n = 0 then c :: cs else dropBytes (n - c.utf8Size) cs

namespace Typed

/-- Nothing has been typed. -/
def empty : Typed :=
  ⟨[], []⟩

/-- The cluster that was typed last is taken back. -/
def erase (t : Typed) : Typed :=
  match t.sizes with
  | [] => t
  | n :: sizes => ⟨dropBytes n t.chars, sizes⟩

/-- A cluster is kept at the end, with its size in one byte. -/
def keep (t : Typed) (cluster : List Char) : Typed :=
  ⟨cluster.reverse ++ t.chars, byteLength cluster % 256 :: t.sizes⟩

/-- One more cluster is typed. A backspace is always a cluster by itself. -/
def type (t : Typed) (cluster : List Char) : Typed :=
  if cluster = [backspace] then t.erase else t.keep cluster

/-- More clusters are typed. -/
def typeAll (t : Typed) (clusters : List (List Char)) : Typed :=
  clusters.foldl type t

/-- The line that is left. -/
def text (t : Typed) : String :=
  String.ofList t.chars.reverse

end Typed

/-- What a typed line comes to, its backspaces carried out. -/
def typedLine (line : String) : String :=
  if backspace ∈ line.toList then (Typed.empty.typeAll (Text.clusters line.toList)).text else line

end Stencil
