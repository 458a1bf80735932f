import Stencil.Proofs.Tiling.Scanning

/-!
# Scanning What Was Written

Tokens that are written out are scanned back, whatever blanks are put between them.

A template can be laid out in many ways: behind each token of an expression, and behind
the opening of a tag, any blanks may stand. Only where two tokens join there has to be
at least one. `WellSpaced` says that a choice of blanks keeps to this, and a template
that is written out so is tiled by its tokens, each at the place where it was written.

## Main definitions

* `blanks`: The characters that may stand between the tokens of an expression.
* `write`: Tokens written out, each with the blanks behind it.
* `WellSpaced`: Blanks stand where they may and where they have to.

## Theorems

* `tiles_write`: What is written out is tiled by its tokens.
* `scan_write`: What is written out is scanned back.
-/

namespace Stencil

/-- The characters that may stand between the tokens of an expression. -/
def blanks : List Char :=
  [' ', '\t', '\r', '\n', '\x0c', '\x0b']

theorem isGap_of_mem_blanks {c : Char} (h : c ∈ blanks) : isGap c := by
  simp only [blanks, List.mem_cons, List.not_mem_nil, or_false] at h
  rcases h with rfl | rfl | rfl | rfl | rfl | rfl <;> rfl

/-- Tokens written out one behind the other, each with some blanks behind it. -/
def write (pieces : List (Token × String)) : String :=
  String.join (pieces.map fun p => p.1.written ++ p.2)

theorem toList_write_cons (t : Token) (gap : String) (rest : List (Token × String)) :
    (write ((t, gap) :: rest)).toList
      = t.written.toList ++ (gap.toList ++ (write rest).toList) := by
  rw [write, List.map_cons, String.join_cons, String.toList_append, String.toList_append,
    List.append_assoc, ← write]

/-- Blanks stand behind tokens inside a tag only, and between tokens that join there is at
    least one. -/
def WellSpaced : Mode → List (Token × String) → Prop
  | _, [] => True
  | m, (t, gap) :: rest =>
    (∀ c ∈ gap.toList, c ∈ blanks) ∧ (m.after t = .literal → gap = "") ∧
      (∀ u ∈ rest.head?, t.Joins u.1 → gap ≠ "") ∧ WellSpaced (m.after t) rest

/-- What is written out is tiled by its tokens. -/
theorem tiles_write {m : Mode} {k : Nat} {pieces : List (Token × String)}
    (htokens : Arranged m (pieces.map Prod.fst)) (hgaps : WellSpaced m pieces) :
    ∃ ts, Tiles m k (write pieces).toList ts ∧
      ts.map Spanned.token = pieces.map Prod.fst := by
  induction pieces generalizing m k with
  | nil => exact ⟨[], .done, rfl⟩
  | cons p rest ih =>
      rcases p with ⟨t, gap⟩
      rcases htokens with ⟨hmode, hwf, htexts, htokens⟩
      rcases hgaps with ⟨hblanks, hliteral, hjoins, hgaps⟩
      rcases ih (k := k + byteLength t.written.toList + byteLength gap.toList) htokens hgaps with
        ⟨ts, htiles, hts⟩
      -- Outside of the tags there are no blanks, and inside they are skipped.
      have hrest : Tiles (m.after t) (k + byteLength t.written.toList)
          (gap.toList ++ (write rest).toList) ts := by
        cases hm : m.after t with
        | literal =>
            rw [hliteral hm] at htiles ⊢
            rwa [hm] at htiles
        | expression =>
            rw [hm] at htiles
            exact .of_gap (fun c hc => isGap_of_mem_blanks (hblanks c hc)) htiles
      have hseparate : Separate t (k + byteLength t.written.toList) ts := by
        intro u hu
        have hnext : (rest.map Prod.fst).head? = some u.token := by
          rw [← hts, List.head?_map, Option.mem_def.mp hu, Option.map_some]
        refine ⟨htexts _ hnext, fun hjoin => ?_⟩
        -- Tokens that join have a blank between them, which takes up a byte.
        rw [List.head?_map] at hnext
        rcases Option.map_eq_some_iff.mp hnext with ⟨v, hv, hvu⟩
        have hgap : gap.toList ≠ [] :=
          fun hnil => hjoins v hv (hvu ▸ hjoin) (String.toList_eq_nil_iff.mp hnil)
        have hpos := byteLength_pos hgap
        have hstart := htiles.le_start u (List.mem_of_mem_head? hu)
        omega
      refine ⟨⟨t, k, k + byteLength t.written.toList⟩ :: ts, ?_, congrArg (t :: ·) hts⟩
      rw [toList_write_cons]
      exact .token hmode hwf hseparate hrest

/-- What is written out is scanned back into its tokens. -/
theorem scan_write {pieces : List (Token × String)}
    (htokens : Arranged .literal (pieces.map Prod.fst)) (hgaps : WellSpaced .literal pieces) :
    scan (write pieces) = .ok (pieces.map Prod.fst) := by
  rcases tiles_write (k := 0) htokens hgaps with ⟨ts, htiles, hts⟩
  rw [scan, scanSpanned_eq_ok_iff.mpr htiles, ← hts]

theorem scan_write_unclosed :
    scan (write [(.text "[", ""), (.tagOpen, "\t "), (.integer "0", ""), (.integer "10", "\n"),
        (.keyword .inWord, "")])
      = .ok [.text "[", .tagOpen, .integer "0", .integer "10", .keyword .inWord] := by
  have htokens : Arranged .literal [.text "[", .tagOpen, .integer "0", .integer "10",
      .keyword .inWord] :=
    ⟨rfl, ⟨by decide, by decide⟩, by decide, rfl, trivial, by decide, rfl, .inl rfl, by decide, rfl,
      .inr ⟨'1', ['0'], rfl, by decide, by decide, List.forall_mem_singleton.mpr rfl⟩, by decide,
      rfl, trivial, by decide, trivial⟩
  have hgaps : WellSpaced .literal [(.text "[", ""), (.tagOpen, "\t "), (.integer "0", ""),
      (.integer "10", "\n"), (.keyword .inWord, "")] := by
    have hzero : ¬ (Token.integer "0").Joins (.integer "10") := by
      rintro (⟨h, _⟩ | ⟨_, h, _⟩)
      · exact nomatch h
      · exact h rfl
    refine ⟨nofun, fun _ => rfl, ?_, ?_, nofun, fun _ _ _ => by decide, nofun, nofun, ?_, ?_, nofun,
      fun _ _ _ => by decide, nofun, nofun, nofun, trivial⟩
    · exact fun _ _ h => absurd h (Token.not_joins rfl rfl)
    · exact List.forall_mem_cons.mpr ⟨by decide, List.forall_mem_singleton.mpr (by decide)⟩
    · intro u hu h
      cases Option.some.inj hu
      exact absurd h hzero
    · exact List.forall_mem_singleton.mpr (by decide)
  exact scan_write htokens hgaps

end Stencil
