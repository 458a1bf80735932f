import Stencil.Proofs.Tiling.Spans
import Stencil.Proofs.Tiling.Writing

/-!
# Every Source Is a Layout of Its Tokens

A source that is scanned is its tokens written out, with some blanks behind each.

Writing tokens out and scanning the result gives the tokens back. The other way round, the
tiling of a source has each token as it is written, and what it leaves uncovered are
blanks behind tokens of a tag. So scanning succeeds on exactly the layouts of tokens that
can be arranged, and where a token stands in the source need no longer be spoken of.

Two layouts put together are a layout of the tokens of both, if the first one ends outside
of the tags and no text meets a text. Where texts do meet, they become one text.

## Main definitions

* `Mode.afterAll`: The mode after some tokens.

## Theorems

* `exists_pieces`: What is tiled by tokens is a layout of them.
* `scan_eq_ok_iff`: Exactly the layouts of arranged tokens are scanned.
* `arranged_append`, `wellSpaced_append`: Layouts one behind the other.
* `scan_append`, `scan_append_text`: Sources one behind the other are scanned into the
  tokens of both.
* `scan_text`: A text that opens no tag is scanned into itself.
-/

namespace Stencil

theorem mem_blanks_of_isGap {c : Char} (h : isGap c) : c ∈ blanks := by
  simpa only [isGap, blanks, Bool.or_eq_true, beq_iff_eq, or_assoc, List.mem_cons, List.not_mem_nil,
    or_false] using h

/-- What is tiled by tokens is a layout of them behind some blanks. -/
theorem exists_pieces {m : Mode} {k : Nat} {cs : List Char} {ts : List Spanned}
    (h : Tiles m k cs ts) :
    ∃ gap pieces, cs = gap ++ (write pieces).toList ∧ (∀ c ∈ gap, c ∈ blanks) ∧
      (m = .literal → gap = []) ∧ WellSpaced m pieces ∧
      pieces.map Prod.fst = ts.map Spanned.token ∧
      ∀ u ∈ ts.head?, u.span.start = k + byteLength gap := by
  induction h with
  | done => exact ⟨[], [], rfl, nofun, fun _ => rfl, trivial, rfl, nofun⟩
  | @gap k c cs ts hgap _ ih =>
      rcases ih with ⟨gap, pieces, rfl, hblanks, _, hspaced, htokens, hstart⟩
      refine ⟨c :: gap, pieces, rfl, ?_, nofun, hspaced, htokens, fun u hu => ?_⟩
      · intro d hd
        rcases List.mem_cons.mp hd with rfl | hd
        · exact mem_blanks_of_isGap hgap
        · exact hblanks d hd
      · rw [hstart u hu, byteLength_cons, Nat.add_assoc]
  | @token m k t cs ts hmode _ hseparate _ ih =>
      rcases ih with ⟨gap, pieces, rfl, hblanks, hliteral, hspaced, htokens, hstart⟩
      refine ⟨[], (t, String.ofList gap) :: pieces, ?_, nofun, fun _ => rfl,
        ⟨?_, fun hm => ?_, fun u hu hjoins => ?_, hspaced⟩, congrArg (t :: ·) htokens, ?_⟩
      · rw [toList_write_cons, String.toList_ofList, List.nil_append]
      · rwa [String.toList_ofList]
      · rw [hliteral hm, String.ofList_nil]
      · -- Tokens that join have a byte between them, which the blanks take up.
        have hhead : (ts.map Spanned.token).head? = some u.1 := by
          rw [← htokens, List.head?_map, Option.mem_def.mp hu, Option.map_some]
        rw [List.head?_map] at hhead
        rcases Option.map_eq_some_iff.mp hhead with ⟨v, hv, hvu⟩
        have hlt := (hseparate v hv).2 (hvu ▸ hjoins)
        rw [hstart v hv] at hlt
        intro hnil
        have hgap : gap = [] := by rw [← String.toList_ofList (l := gap), hnil]; rfl
        rw [hgap, byteLength_nil, Nat.add_zero] at hlt
        exact absurd hlt (Nat.lt_irrefl _)
      · intro u hu
        cases hu
        rfl

/-- Exactly the layouts of tokens that can be arranged are scanned, into these tokens. -/
theorem scan_eq_ok_iff {source : String} {tokens : List Token} :
    scan source = .ok tokens ↔ ∃ pieces, Arranged .literal (pieces.map Prod.fst) ∧
      WellSpaced .literal pieces ∧ source = write pieces ∧ tokens = pieces.map Prod.fst := by
  constructor
  · intro h
    unfold scan at h
    split at h
    · rename_i ts hts
      have htiles := scanSpanned_eq_ok_iff.mp hts
      rcases exists_pieces htiles with ⟨gap, pieces, hsource, _, hgap, hspaced, htokens, _⟩
      rw [hgap rfl, List.nil_append] at hsource
      have harranged := htiles.arranged
      rw [← htokens] at harranged
      exact ⟨pieces, harranged, hspaced, String.toList_inj.mp hsource,
        (Except.ok.inj h).symm.trans htokens.symm⟩
    · exact nomatch h
  · rintro ⟨pieces, harranged, hspaced, rfl, rfl⟩
    rcases tiles_write (k := 0) harranged hspaced with ⟨ts, htiles, hts⟩
    rw [scan, scanSpanned_eq_ok_iff.mpr htiles, ← hts]

/-- The mode after some tokens. -/
def Mode.afterAll (m : Mode) (tokens : List Token) : Mode :=
  tokens.foldl Mode.after m

theorem Mode.afterAll_append (m : Mode) (ts us : List Token) :
    m.afterAll (ts ++ us) = (m.afterAll ts).afterAll us :=
  List.foldl_append

section

variable {m : Mode} {ts us : List Token} {ps qs : List (Token × String)}

/-- Tokens are arranged one behind the other if no text meets a text. -/
theorem arranged_append : Arranged m (ts ++ us) ↔
    Arranged m ts ∧ Arranged (m.afterAll ts) us ∧
      ∀ t ∈ ts.getLast?, ∀ u ∈ us.head?, ¬ (t.isText ∧ u.isText) := by
  induction ts generalizing m with
  | nil => exact ⟨fun h => ⟨trivial, h, nofun⟩, fun ⟨_, h, _⟩ => h⟩
  | cons t ts ih =>
      have hafter : m.afterAll (t :: ts) = (m.after t).afterAll ts := rfl
      rw [List.cons_append, Arranged, ih, Arranged, hafter]
      cases ts with
      | nil =>
          simp only [List.nil_append, List.head?_nil, List.getLast?_nil, List.getLast?_singleton,
            Option.mem_def, Option.some.injEq, reduceCtorEq, false_implies, implies_true,
            forall_eq', Arranged]
          tauto
      | cons t' ts =>
          rw [List.getLast?_cons_cons, List.cons_append, List.head?_cons, List.head?_cons]
          tauto

/-- Layouts one behind the other are one layout if there is a blank between tokens that
    join. -/
theorem wellSpaced_append : WellSpaced m (ps ++ qs) ↔
    WellSpaced m ps ∧ WellSpaced (m.afterAll (ps.map Prod.fst)) qs ∧
      ∀ p ∈ ps.getLast?, ∀ q ∈ qs.head?, p.1.Joins q.1 → p.2 ≠ "" := by
  induction ps generalizing m with
  | nil => exact ⟨fun h => ⟨trivial, h, nofun⟩, fun ⟨_, h, _⟩ => h⟩
  | cons p ps ih =>
      rcases p with ⟨t, gap⟩
      have hafter : m.afterAll (((t, gap) :: ps).map Prod.fst)
          = (m.after t).afterAll (ps.map Prod.fst) := rfl
      rw [List.cons_append, WellSpaced, ih, WellSpaced, hafter]
      cases ps with
      | nil =>
          simp only [List.nil_append, List.head?_nil, List.getLast?_nil, List.getLast?_singleton,
            Option.mem_def, Option.some.injEq, reduceCtorEq, false_implies, implies_true,
            forall_eq', WellSpaced]
          tauto
      | cons p' ps =>
          rw [List.getLast?_cons_cons, List.cons_append, List.head?_cons, List.head?_cons]
          tauto

theorem write_cons (t : Token) (gap : String) (rest : List (Token × String)) :
    write ((t, gap) :: rest) = t.written ++ gap ++ write rest := by
  rw [write, List.map_cons, String.join_cons, ← write]

theorem write_append (ps qs : List (Token × String)) : write (ps ++ qs) = write ps ++ write qs := by
  rw [write, write, write, List.map_append, String.join_append]

end

/-- A tag opens across two texts only where they meet. -/
theorem not_infix_append {l r : List Char} (hl : ¬ ['[', '%'] <:+: l) (hr : ¬ ['[', '%'] <:+: r)
    (hseam : ¬ (l.getLast? = some '[' ∧ r.head? = some '%')) : ¬ ['[', '%'] <:+: l ++ r := by
  induction l with
  | nil => exact hr
  | cons c l ih =>
      rw [List.cons_append, List.infix_cons_iff]
      rintro (hfront | hinside)
      · -- A tag would open right at the front, and its percent sign lies in one of the two.
        rw [List.cons_prefix_cons] at hfront
        rcases hfront with ⟨rfl, hpercent⟩
        cases l with
        | nil =>
            refine hseam ⟨rfl, ?_⟩
            cases r with
            | nil => exact nomatch List.prefix_nil.mp hpercent
            | cons d r => rw [List.head?_cons, (List.cons_prefix_cons.mp hpercent).1]
        | cons d l =>
            rw [List.cons_append, List.cons_prefix_cons] at hpercent
            refine hl ⟨[], l, ?_⟩
            rw [hpercent.1]
            rfl
      · refine ih (fun h => hl (List.infix_cons h)) (fun h => hseam ?_) hinside
        cases l with
        | nil => exact nomatch h.1
        | cons d l => exact ⟨by rw [List.getLast?_cons_cons]; exact h.1, h.2⟩

/-- Behind the last token of a source that ends outside of the tags nothing joins. -/
theorem not_joins_of_afterAll {m : Mode} {ts : List Token} (h : Arranged m ts)
    (hend : m.afterAll ts = .literal) : ∀ t ∈ ts.getLast?, ∀ u : Token, ¬ t.Joins u := by
  intro t ht u hjoins
  rcases List.getLast?_eq_some_iff.mp ht with ⟨front, rfl⟩
  rw [Mode.afterAll_append] at hend
  have hsign : t.isWord ∨ t.isInteger := hjoins.elim (fun h => .inl h.1) (fun h => .inr h.1)
  have hmode : t.mode = m.afterAll front := (arranged_append.mp h).2.1.1
  -- A word or a number stands in a tag and does not end it.
  have hafter : (m.afterAll front).after t = .literal := hend
  rw [← hmode] at hafter
  have hexpression := Token.after_eq_expression hsign
  cases ht' : t.mode with
  | literal =>
      cases t with
      | text s => exact hsign.elim nofun nofun
      | tagOpen => exact hsign.elim nofun nofun
      | _ => exact nomatch ht'
  | expression =>
      rw [ht'] at hafter
      rw [hafter] at hexpression
      exact nomatch hexpression

section

variable {a b : String} {ts us : List Token}

/-- Sources one behind the other are scanned into the tokens of both, if the first one ends
    outside of the tags and no text meets a text. -/
theorem scan_append (ha : scan a = .ok ts) (hb : scan b = .ok us)
    (hend : Mode.literal.afterAll ts = .literal)
    (hapart : ∀ t ∈ ts.getLast?, ∀ u ∈ us.head?, ¬ (t.isText ∧ u.isText)) :
    scan (a ++ b) = .ok (ts ++ us) := by
  rcases scan_eq_ok_iff.mp ha with ⟨ps, harranged, hspaced, rfl, rfl⟩
  rcases scan_eq_ok_iff.mp hb with ⟨qs, harranged', hspaced', rfl, rfl⟩
  refine scan_eq_ok_iff.mpr ⟨ps ++ qs, ?_, ?_, (write_append ps qs).symm, List.map_append.symm⟩
  · rw [List.map_append]
    exact arranged_append.mpr ⟨harranged, by rwa [hend], hapart⟩
  · refine wellSpaced_append.mpr ⟨hspaced, by rwa [hend], fun p hp q _ hjoins => ?_⟩
    have hlast : p.1 ∈ (ps.map Prod.fst).getLast? := by
      rw [List.getLast?_map, Option.mem_def.mp hp]
      rfl
    exact absurd hjoins (not_joins_of_afterAll harranged hend p.1 hlast q.1)

/-- A text that opens no tag is scanned into itself. -/
theorem scan_text {s : String} (hwf : (Token.text s).WellFormed) : scan s = .ok [.text s] := by
  refine scan_eq_ok_iff.mpr ⟨[(.text s, "")], ⟨rfl, hwf, nofun, trivial⟩,
    ⟨nofun, fun _ => rfl, nofun, trivial⟩, ?_, rfl⟩
  refine String.toList_inj.mp ?_
  rw [toList_write_cons]
  exact (List.append_nil _).symm

/-- What is in front of a text at the end of a source is scanned into the tokens in front of
    it, and ends outside of the tags. -/
theorem exists_of_scan_concat {s : String} (h : scan a = .ok (ts ++ [.text s])) :
    ∃ front, a = front ++ s ∧ scan front = .ok ts ∧ Mode.literal.afterAll ts = .literal ∧
      (Token.text s).WellFormed ∧ ∀ t ∈ ts.getLast?, ¬ t.isText := by
  rcases scan_eq_ok_iff.mp h with ⟨pieces, harranged, hspaced, rfl, hpieces⟩
  rcases List.map_eq_append_iff.mp hpieces.symm with ⟨ps, last, rfl, rfl, hlast⟩
  rcases List.map_eq_singleton_iff.mp hlast with ⟨⟨_, gap⟩, rfl, rfl⟩
  rw [List.map_append, arranged_append] at harranged
  rw [wellSpaced_append] at hspaced
  rcases harranged with ⟨hfront, ⟨hmode, hwf, _⟩, hapart⟩
  rcases hspaced with ⟨hspaced, ⟨_, hgap, _⟩, _⟩
  -- The text stands outside of the tags, where no blanks are.
  have hend : Mode.literal.afterAll (ps.map Prod.fst) = .literal := hmode.symm
  refine ⟨write ps, ?_, scan_eq_ok_iff.mpr ⟨ps, hfront, hspaced, rfl, rfl⟩, hend, hwf, ?_⟩
  · rw [write_append, hgap hend]
    refine congrArg (write ps ++ ·) (String.toList_inj.mp ?_)
    rw [toList_write_cons]
    exact List.append_nil _
  · exact fun t ht htext => hapart t ht _ rfl ⟨htext, rfl⟩

/-- What is behind a text at the start of a source is scanned into the tokens behind it. -/
theorem exists_of_scan_cons {s : String} (h : scan b = .ok (.text s :: us)) :
    ∃ back, b = s ++ back ∧ scan back = .ok us ∧
      (Token.text s).WellFormed ∧ ∀ u ∈ us.head?, ¬ u.isText := by
  rcases scan_eq_ok_iff.mp h with ⟨pieces, harranged, hspaced, rfl, hpieces⟩
  rcases List.map_eq_cons_iff.mp hpieces.symm with ⟨⟨_, gap⟩, qs, rfl, rfl, rfl⟩
  rcases harranged with ⟨_, hwf, hnext, harranged⟩
  rcases hspaced with ⟨_, hgap, _, hspaced⟩
  refine ⟨write qs, ?_, scan_eq_ok_iff.mpr ⟨qs, harranged, hspaced, rfl, rfl⟩, hwf, ?_⟩
  · refine String.toList_inj.mp ?_
    rw [toList_write_cons, hgap rfl, String.toList_append]
    rfl
  · exact fun u hu htext => hnext u hu ⟨rfl, htext⟩

/-- Where a text meets a text they are scanned into one, if no tag opens between them. -/
theorem scan_append_text {s s' : String} (ha : scan a = .ok (ts ++ [.text s]))
    (hb : scan b = .ok (.text s' :: us))
    (hseam : ¬ (a.toList.getLast? = some '[' ∧ b.toList.head? = some '%')) :
    scan (a ++ b) = .ok (ts ++ .text (s ++ s') :: us) := by
  rcases exists_of_scan_concat ha with ⟨front, rfl, hfront, hend, hwf, hlast⟩
  rcases exists_of_scan_cons hb with ⟨back, rfl, hback, hwf', hnext⟩
  have hnil : s.toList ≠ [] := fun h => hwf.1 (String.toList_eq_nil_iff.mp h)
  have hnil' : s'.toList ≠ [] := fun h => hwf'.1 (String.toList_eq_nil_iff.mp h)
  have hboth : (Token.text (s ++ s')).WellFormed := by
    refine ⟨fun h => hnil ?_, ?_⟩
    · have hempty : (s ++ s').toList = [] := String.toList_eq_nil_iff.mpr h
      rw [String.toList_append] at hempty
      exact (List.append_eq_nil_iff.mp hempty).1
    · rw [String.toList_append]
      refine not_infix_append hwf.2 hwf'.2 fun h => hseam ?_
      rw [String.toList_append, String.toList_append, List.getLast?_append_of_ne_nil _ hnil,
        List.head?_append_of_ne_nil _ hnil']
      exact h
  -- The two texts are a source of their own, between what is in front and what is behind.
  have htexts : scan ((s ++ s') ++ back) = .ok ([.text (s ++ s')] ++ us) := by
    refine scan_append (scan_text hboth) hback rfl fun t _ u hu htexts => hnext u hu htexts.2
  have hall := scan_append hfront htexts hend fun t ht u _ htexts => hlast t ht htexts.1
  have hsource : front ++ s ++ (s' ++ back) = front ++ (s ++ s' ++ back) := by
    simp only [String.append_assoc]
  rw [hsource]
  exact hall

end

end Stencil
