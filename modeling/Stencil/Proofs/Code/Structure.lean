import Stencil.Proofs.Code.Placement

/-!
# Code Is Made of Blocks and Loops

How the jumps of a node's code are related to each other.

Whatever a node is, its code is put together from a few pieces: single instructions that
do not jump, blocks and loops. A block is some code behind a jump over all of it. A loop
is some code between its beginning, which jumps behind the loop, and its check, which
jumps back to the code. `Structured` says that code is of this form, and forgets the tree
that it was written for.

What the jumps of such code have in common follows by going through the pieces. They stay
within the code or go right behind it, all but the checks go forward, a beginning and a
check always belong together, and two stretches of code that jumps go over are apart or
one is inside the other.

## Main definitions

* `Along`: The items of a list have a property, each at its own address.
* `Instruction.target?`: Where an instruction may jump to.
* `Instruction.StaysIn`: An instruction is not the stop and jumps within bounds only.
* `Structured`: Code is made of instructions that do not jump, blocks and loops.
* `Instruction.range?`, `jumpRanges`: The stretches of code that jumps go over.
* `Laminar`: Two stretches are apart, or one is inside the other.

## Theorems

* `along_append`, `along_cons`: What holds along a list holds along its pieces.
* `layout_structured`: The code of a node is structured.
* `layout_staysIn`: The code of a node jumps at most to the address behind it.
* `Structured.forward`: All jumps but those of checks go forward.
* `Structured.check_of_begin`, `Structured.begin_of_check`: Beginnings and checks belong
  together.
* `Structured.laminar`: Jumps go over stretches that are apart or inside each other.
-/

namespace Stencil

/-- Every item of a list that starts at an address has the property at its own address. -/
def Along {α : Type} (P : Nat → α → Prop) (base : Nat) (items : List α) : Prop :=
  ∀ i x, items[i]? = some x → P (base + i) x

section

variable {α : Type} {P Q : Nat → α → Prop} {base : Nat} {x : α} {front back items : List α}

theorem along_nil : Along P base [] := nofun

theorem along_append : Along P base (front ++ back) ↔
    Along P base front ∧ Along P (base + front.length) back := by
  constructor
  · intro h
    refine ⟨fun i x hx => h i x ?_, fun i x hx => ?_⟩
    · rwa [List.getElem?_append_left (List.getElem?_eq_some_iff.mp hx).1]
    · rw [Nat.add_assoc]
      refine h _ x ?_
      rwa [List.getElem?_append_right (Nat.le_add_right _ _), Nat.add_sub_cancel_left]
  · rintro ⟨hfront, hback⟩ i x hx
    by_cases hi : i < front.length
    · exact hfront i x (by rwa [List.getElem?_append_left hi] at hx)
    · rw [List.getElem?_append_right (Nat.le_of_not_lt hi)] at hx
      have h := hback _ x hx
      rwa [show base + front.length + (i - front.length) = base + i by omega] at h

theorem along_singleton : Along P base [x] ↔ P base x := by
  constructor
  · intro h
    exact h 0 x rfl
  · intro h i y hy
    rw [List.getElem?_singleton] at hy
    split at hy
    · cases hy
      rename_i hi
      rwa [hi]
    · exact nomatch hy

theorem along_cons : Along P base (x :: items) ↔ P base x ∧ Along P (base + 1) items := by
  rw [← List.singleton_append, along_append, along_singleton, List.length_singleton]

theorem Along.mono (h : Along P base items) (hPQ : ∀ k x, P k x → Q k x) : Along Q base items :=
  fun i x hx => hPQ _ x (h i x hx)

end

/-- Where an instruction may jump to. -/
def Instruction.target? : Instruction → Option Nat
  | .jumpIfFalse target => some target
  | .beginFor _ target => some target
  | .checkFor target => some target
  | _ => none

/-- The instruction is not the stop, and it jumps within the bounds if it jumps at all. -/
def Instruction.StaysIn (lo hi : Nat) (i : Instruction) : Prop :=
  i ≠ .stop ∧ ∀ target ∈ i.target?, lo ≤ target ∧ target ≤ hi

theorem Instruction.staysIn_of_target? {lo hi : Nat} {i : Instruction} (hstop : i ≠ .stop)
    (hplain : i.target? = none) : i.StaysIn lo hi :=
  ⟨hstop, fun target htarget => by rw [hplain] at htarget; exact nomatch htarget⟩

/-- What stays within bounds stays within wider ones. -/
theorem Along.widen {lo hi lo' hi' base : Nat} {code : List Instruction}
    (h : Along (fun _ => Instruction.StaysIn lo hi) base code) (hlo : lo' ≤ lo) (hhi : hi ≤ hi') :
    Along (fun _ => Instruction.StaysIn lo' hi') base code :=
  h.mono fun _ _ hi => ⟨hi.1, fun target htarget =>
    ⟨Nat.le_trans hlo (hi.2 target htarget).1, Nat.le_trans (hi.2 target htarget).2 hhi⟩⟩

/-- Code that starts at an address is made of instructions that do not jump, of blocks,
    which are code behind a jump over it, and of loops, which are code between a beginning
    that jumps behind the loop and a check that jumps back. -/
inductive Structured : Nat → List Instruction → Prop
  | nil {base : Nat} : Structured base []
  | plain {base : Nat} {i : Instruction} : i.target? = none → i ≠ .stop → Structured base [i]
  | append {base : Nat} {front back : List Instruction} : Structured base front →
    Structured (base + front.length) back → Structured base (front ++ back)
  | block {base : Nat} {inner : List Instruction} : Structured (base + 1) inner →
    Structured base (.jumpIfFalse (base + 1 + inner.length) :: inner)
  | loop {base key : Nat} {inner : List Instruction} : Structured (base + 1) inner →
    Structured base
      (.beginFor key (base + 1 + inner.length + 1) :: (inner ++ [.checkFor (base + 1)]))

mutual

/-- The code of a node is structured. -/
theorem layout_structured : (n : Node) → ∀ (base : Nat) (names : Names),
    Structured base (layout n base names)
  | .sequence statements, base, names => layoutAll_structured statements base names
  | .text _, _, _ => .plain rfl nofun
  | .print e, base, names => .append (layout_structured e base names) (.plain rfl nofun)
  | .integer _, _, _ => .plain rfl nofun
  | .nil, _, _ => .plain rfl nofun
  | .lookup _, _, _ => .plain rfl nofun
  | .array elements, base, names =>
      .append (layoutReversed_structured elements base names) (.plain rfl nofun)
  | .binary _ lhs rhs, base, names =>
      .append (layout_structured rhs base names)
        (.append (layout_structured lhs _ _) (.plain rfl nofun))
  | .ifThen condition body, base, names =>
      .append (layout_structured condition base names) (.block (layout_structured body _ _))
  | .forEach _ iterable body, base, names =>
      .append (layout_structured iterable base names) (.loop (layout_structured body _ _))

theorem layoutAll_structured : (ns : List Node) → ∀ (base : Nat) (names : Names),
    Structured base (layoutAll ns base names)
  | [], _, _ => .nil
  | n :: ns, base, names =>
      .append (layout_structured n base names) (layoutAll_structured ns _ _)

theorem layoutReversed_structured : (ns : List Node) → ∀ (base : Nat) (names : Names),
    Structured base (layoutReversed ns base names)
  | [], _, _ => .nil
  | n :: ns, base, names =>
      .append (layoutReversed_structured ns base names) (layout_structured n _ _)

end

namespace Structured

variable {base : Nat} {code : List Instruction}

/-- Structured code has no stop, and jumps at most to the address behind it. -/
theorem staysIn (h : Structured base code) :
    Along (fun _ => Instruction.StaysIn base (base + code.length)) base code := by
  induction h with
  | nil => exact along_nil
  | plain hplain hstop => exact along_singleton.mpr (Instruction.staysIn_of_target? hstop hplain)
  | append _ _ ihfront ihback =>
      rw [List.length_append]
      exact along_append.mpr
        ⟨ihfront.widen (Nat.le_refl _) (by omega), ihback.widen (by omega) (by omega)⟩
  | block _ ih =>
      rw [List.length_cons]
      refine along_cons.mpr ⟨⟨nofun, fun target htarget => ?_⟩, ih.widen (by omega) (by omega)⟩
      -- The jump goes right behind the block.
      cases htarget
      omega
  | loop _ ih =>
      rw [List.length_cons, List.length_append, List.length_singleton]
      refine along_cons.mpr ⟨⟨nofun, fun target htarget => ?_⟩, along_append.mpr
        ⟨ih.widen (by omega) (by omega), along_singleton.mpr ⟨nofun, fun target htarget => ?_⟩⟩⟩
      · -- The beginning jumps right behind the check.
        cases htarget
        omega
      · -- The check jumps back to the code between the two.
        cases htarget
        omega

end Structured

/-- The code of a node jumps at most to the address behind it. -/
theorem layout_staysIn (n : Node) (base : Nat) (names : Names) :
    Along (fun _ => Instruction.StaysIn base (base + n.codeSize)) base (layout n base names) := by
  have h := (layout_structured n base names).staysIn
  rwa [layout_length] at h

/-- The jump goes forward, unless it is that of a check. -/
def Instruction.GoesForward (k : Nat) : Instruction → Prop
  | .jumpIfFalse target => k < target
  | .beginFor _ target => k < target
  | _ => True

/-- The stretch of code that the jump of an instruction at an address goes over: from the
    instruction on up to the target, or from the target on if that comes first. -/
def Instruction.range? (k : Nat) : Instruction → Option (Nat × Nat)
  | .jumpIfFalse target => some (k, target)
  | .beginFor _ target => some (k, target)
  | .checkFor target => some (target, k + 1)
  | _ => none

/-- The stretches of code that the jumps of some code go over. -/
def jumpRanges (base : Nat) (code : List Instruction) : List (Nat × Nat) :=
  (code.zipIdx base).filterMap fun x => x.1.range? x.2

/-- The two stretches of code are apart, or one of them is inside the other. -/
def Laminar (r s : Nat × Nat) : Prop :=
  (r.2 ≤ s.1 ∨ s.2 ≤ r.1) ∨ (s.1 ≤ r.1 ∧ r.2 ≤ s.2) ∨ (r.1 ≤ s.1 ∧ s.2 ≤ r.2)

instance : Std.Symm Laminar where
  symm r s h := by
    unfold Laminar at h ⊢
    omega

theorem laminar_self (r : Nat × Nat) : Laminar r r :=
  .inr (.inl ⟨Nat.le_refl _, Nat.le_refl _⟩)

theorem jumpRanges_append (base : Nat) (front back : List Instruction) :
    jumpRanges base (front ++ back)
      = jumpRanges base front ++ jumpRanges (base + front.length) back := by
  rw [jumpRanges, List.zipIdx_append, List.filterMap_append, ← jumpRanges, ← jumpRanges]

theorem jumpRanges_cons {base : Nat} {i : Instruction} {r : Nat × Nat} (h : i.range? base = some r)
    (code : List Instruction) : jumpRanges base (i :: code) = r :: jumpRanges (base + 1) code := by
  rw [jumpRanges, List.zipIdx_cons]
  exact List.filterMap_cons_some h

theorem range?_eq_none {i : Instruction} {k : Nat} (h : i.target? = none) : i.range? k = none := by
  cases i with
  | jumpIfFalse target => exact nomatch h
  | beginFor key target => exact nomatch h
  | checkFor target => exact nomatch h
  | _ => rfl

theorem jumpRanges_plain {base : Nat} {i : Instruction} (h : i.target? = none) :
    jumpRanges base [i] = [] := by
  rw [jumpRanges, List.zipIdx_singleton]
  exact List.filterMap_cons_none (range?_eq_none h)

namespace Structured

variable {base : Nat} {code : List Instruction}

/-- In structured code all jumps go forward but those of checks. -/
theorem forward (h : Structured base code) : Along Instruction.GoesForward base code := by
  induction h with
  | nil => exact along_nil
  | @plain base i hplain _ =>
      refine along_singleton.mpr ?_
      cases i with
      | jumpIfFalse target => exact nomatch hplain
      | beginFor key target => exact nomatch hplain
      | _ => trivial
  | append _ _ ihfront ihback => exact along_append.mpr ⟨ihfront, ihback⟩
  | @block base inner _ ih =>
      have hhead : base < base + 1 + inner.length := by omega
      exact along_cons.mpr ⟨hhead, ih⟩
  | @loop base key inner _ ih =>
      have hhead : base < base + 1 + inner.length + 1 := by omega
      exact along_cons.mpr ⟨hhead, along_append.mpr ⟨ih, along_singleton.mpr trivial⟩⟩

/-- Every beginning of a loop jumps right behind a check that jumps right behind it. -/
theorem check_of_begin (h : Structured base code) {key target k : Nat}
    (hbegin : (.beginFor key target, k) ∈ code.zipIdx base) :
    ∃ c, target = c + 1 ∧ (.checkFor (k + 1), c) ∈ code.zipIdx base := by
  induction h with
  | nil => exact nomatch hbegin
  | plain hplain _ =>
      cases List.mem_singleton.mp hbegin
      exact nomatch hplain
  | append _ _ ihfront ihback =>
      rw [List.zipIdx_append] at hbegin ⊢
      rcases List.mem_append.mp hbegin with hfront | hback
      · rcases ihfront hfront with ⟨c, htarget, hc⟩
        exact ⟨c, htarget, List.mem_append_left _ hc⟩
      · rcases ihback hback with ⟨c, htarget, hc⟩
        exact ⟨c, htarget, List.mem_append_right _ hc⟩
  | block _ ih =>
      rw [List.zipIdx_cons] at hbegin ⊢
      rcases List.mem_cons.mp hbegin with heq | hinner
      · exact nomatch heq
      · rcases ih hinner with ⟨c, htarget, hc⟩
        exact ⟨c, htarget, List.mem_cons_of_mem _ hc⟩
  | @loop base _ inner _ ih =>
      rw [List.zipIdx_cons, List.zipIdx_append] at hbegin ⊢
      rcases List.mem_cons.mp hbegin with heq | hbegin
      · -- The check of this loop is the last of its instructions.
        cases heq
        refine ⟨k + 1 + inner.length, rfl, List.mem_cons_of_mem _ (List.mem_append_right _ ?_)⟩
        exact List.mem_singleton.mpr rfl
      · rcases List.mem_append.mp hbegin with hinner | hlast
        · rcases ih hinner with ⟨c, htarget, hc⟩
          exact ⟨c, htarget, List.mem_cons_of_mem _ (List.mem_append_left _ hc)⟩
        · exact nomatch List.mem_singleton.mp hlast

/-- Every check jumps right behind the beginning of a loop that jumps right behind it. -/
theorem begin_of_check (h : Structured base code) {target c : Nat}
    (hcheck : (.checkFor target, c) ∈ code.zipIdx base) :
    ∃ k key, target = k + 1 ∧ (.beginFor key (c + 1), k) ∈ code.zipIdx base := by
  induction h with
  | nil => exact nomatch hcheck
  | plain hplain _ =>
      cases List.mem_singleton.mp hcheck
      exact nomatch hplain
  | append _ _ ihfront ihback =>
      rw [List.zipIdx_append] at hcheck ⊢
      rcases List.mem_append.mp hcheck with hfront | hback
      · rcases ihfront hfront with ⟨k, key, htarget, hk⟩
        exact ⟨k, key, htarget, List.mem_append_left _ hk⟩
      · rcases ihback hback with ⟨k, key, htarget, hk⟩
        exact ⟨k, key, htarget, List.mem_append_right _ hk⟩
  | block _ ih =>
      rw [List.zipIdx_cons] at hcheck ⊢
      rcases List.mem_cons.mp hcheck with heq | hinner
      · exact nomatch heq
      · rcases ih hinner with ⟨k, key, htarget, hk⟩
        exact ⟨k, key, htarget, List.mem_cons_of_mem _ hk⟩
  | @loop base key inner _ ih =>
      rw [List.zipIdx_cons, List.zipIdx_append] at hcheck ⊢
      rcases List.mem_cons.mp hcheck with heq | hcheck
      · exact nomatch heq
      · rcases List.mem_append.mp hcheck with hinner | hlast
        · rcases ih hinner with ⟨k, key, htarget, hk⟩
          exact ⟨k, key, htarget, List.mem_cons_of_mem _ (List.mem_append_left _ hk)⟩
        · -- The beginning of this loop is the first of its instructions.
          cases List.mem_singleton.mp hlast
          exact ⟨base, key, rfl, List.mem_cons_self⟩

/-- What the jumps of structured code go over is inside of it. -/
theorem jumpRanges_within (h : Structured base code) :
    ∀ r ∈ jumpRanges base code, base ≤ r.1 ∧ r.2 ≤ base + code.length := by
  induction h with
  | nil => exact nofun
  | plain hplain _ =>
      rw [jumpRanges_plain hplain]
      exact nofun
  | append _ _ ihfront ihback =>
      intro r hr
      rw [jumpRanges_append] at hr
      rw [List.length_append]
      rcases List.mem_append.mp hr with hr | hr
      · have := ihfront r hr
        omega
      · have := ihback r hr
        omega
  | block _ ih =>
      intro r hr
      rw [jumpRanges_cons rfl] at hr
      rw [List.length_cons]
      rcases List.mem_cons.mp hr with rfl | hr
      · exact ⟨Nat.le_refl _, by omega⟩
      · have := ih r hr
        omega
  | loop _ ih =>
      intro r hr
      rw [jumpRanges_cons rfl, jumpRanges_append] at hr
      rw [List.length_cons, List.length_append, List.length_singleton]
      rcases List.mem_cons.mp hr with rfl | hr
      · exact ⟨Nat.le_refl _, by omega⟩
      · rcases List.mem_append.mp hr with hr | hr
        · have := ih r hr
          omega
        · cases List.mem_singleton.mp hr
          exact ⟨Nat.le_add_right _ _, by omega⟩

/-- What two jumps of structured code go over is apart, or one is inside the other. -/
theorem laminar (h : Structured base code) : (jumpRanges base code).Pairwise Laminar := by
  induction h with
  | nil => exact .nil
  | plain hplain _ =>
      rw [jumpRanges_plain hplain]
      exact .nil
  | append hfront hback ihfront ihback =>
      rw [jumpRanges_append]
      refine List.pairwise_append.mpr ⟨ihfront, ihback, fun r hr s hs => .inl (.inl ?_)⟩
      exact Nat.le_trans (hfront.jumpRanges_within r hr).2 (hback.jumpRanges_within s hs).1
  | block hinner ih =>
      rw [jumpRanges_cons rfl]
      refine List.pairwise_cons.mpr ⟨fun r hr => .inr (.inr ?_), ih⟩
      have := hinner.jumpRanges_within r hr
      exact ⟨by omega, by omega⟩
  | loop hinner ih =>
      -- The beginning goes over all of the loop, and the check over all but the beginning.
      rw [jumpRanges_cons rfl, jumpRanges_append]
      refine List.pairwise_cons.mpr ⟨fun r hr => .inr (.inr ?_),
        List.pairwise_append.mpr ⟨ih, List.pairwise_singleton _ _, fun r hr s hs => .inr (.inl ?_)⟩⟩
      · rcases List.mem_append.mp hr with hr | hr
        · have := hinner.jumpRanges_within r hr
          exact ⟨by omega, by omega⟩
        · cases List.mem_singleton.mp hr
          exact ⟨Nat.le_add_right _ _, Nat.le_refl _⟩
      · cases List.mem_singleton.mp hs
        have := hinner.jumpRanges_within r hr
        exact ⟨by omega, by omega⟩

end Structured

end Stencil
