import Mathlib.Data.List.Forall2
import Mathlib.Data.List.Infix
import Stencil.Proofs.Machine.Scopes
import Stencil.Proofs.Machine.Steps

/-!
# Histories of Scopes

What scopes are after whatever has been done to them.

A loop's scope is a place among items, and what happens to it is scattered over a history:
other scopes are pushed over it and popped again, are advanced in its place, and bind the
same name. So histories are run on two machines. One is the scopes. The other one keeps a
`Frame` for each loop, which is no place among the items but the items themselves with the
number of times that the loop was asked for the next one. What a frame binds, and whether it
has a next item, is said by that number alone. One operation keeps the two machines in step
and gets the same answer from both, and so does a history.

Every step of a program is a history of its own: nothing, the beginning of a loop, an
advance, or an advance that is refused and then a pop. So all this holds wherever a run gets
to, whatever the program is.

The scopes below a pushed one are out of reach until it is popped. This is the last part: a
history that does not pop the scope it started with leaves what is below alone, and the pop
brings it back.

## Main definitions

* `Scope.advance`, `Scope.advanced`: Asking a loop for its next item, once or several times.
* `Scopes.Operation`, `Scopes.Answer`, `Scopes.perform`: What can be done with scopes.
* `Frame`, `Frames.lookup`, `Frames.perform`: The same for loops that count how often they
  were asked.
* `History.after`, `History.answers`: Where operations lead to and what they answer.
* `Scope.Tracks`, `Scopes.InStep`: A scope is where its frame says, and so are all of them.
* `Scopes.Over`: Scopes with some more above others.
* `Scope.AtCursor`: The cursor is among the items, behind the current one.

## Theorems

* `Scope.Tracks.advance`: A scope has a next item where its frame has one, or stays as it is.
* `perform_inStep`, `run_inStep`: Scopes stay in step with frames.
* `step_history`, `reaches_history`: What a run does with scopes is a history.
* `perform_over`, `after_over`: What is below a scope is out of reach.
* `after_enter_pop`: A scope that is pushed and popped leaves the scopes as they were.
* `scopes_refine`: All of this for any history and any program.
-/

namespace Stencil

namespace Scope

/-- Asks for the next item: whether there is one, and the scope with it bound. -/
def advance (s : Scope) : Bool × Scope :=
  match s.advance? with
  | some next => (true, next)
  | none => (false, s)

/-- The scope after it was asked for the next item some times. -/
def advanced (s : Scope) : Nat → Scope
  | 0 => s
  | n + 1 => (s.advanced n).advance.2

end Scope

namespace Scopes

/-- What can be done with scopes. -/
inductive Operation
  /-- A loop over items begins, if there are any. -/
  | enter (key : Nat) (items : List Value)
  /-- The innermost loop is asked for its next item. -/
  | advance
  /-- The innermost loop's scope is removed. -/
  | pop
  | lookup (key : Nat)

/-- What an operation answers. -/
inductive Answer
  | entered (begins : Bool)
  /-- Whether there is a next item, if a loop is running. -/
  | advanced (hasNext : Option Bool)
  /-- Whether there was a scope to remove. -/
  | popped (some : Bool)
  | found (v : Value)

/-- Carries out one operation. -/
def perform (s : Scopes) : Operation → Answer × Scopes
  | .enter key items =>
    match Scope.begin? key items with
    | some scope => (.entered true, s.push scope)
    | none => (.entered false, s)
  | .advance =>
    match s.innermost? with
    | some scope => (.advanced (some scope.advance.1), s.replace scope.advance.2)
    | none => (.advanced none, s)
  | .pop => (.popped s.innermost?.isSome, s.pop)
  | .lookup key => (.found (s.lookup key), s)

end Scopes

/-- A running loop by its items and the number of times that it was asked for the next
    one. -/
structure Frame where
  key : Nat
  items : List Value
  nonempty : items ≠ []
  asked : Nat

namespace Frame

/-- The place of the current item: one further each time that the loop is asked, up to the
    last. -/
def place (f : Frame) : Nat :=
  min f.asked (f.items.length - 1)

theorem place_lt (f : Frame) : f.place < f.items.length := by
  have hpos := List.length_pos_iff.mpr f.nonempty
  unfold place
  omega

def current (f : Frame) : Value :=
  f.items.get ⟨f.place, f.place_lt⟩

/-- The loop was asked fewer times than it has items behind the first. -/
def hasNext (f : Frame) : Bool :=
  decide (f.asked < f.items.length - 1)

/-- The loop once it is asked again. -/
def ask (f : Frame) : Frame :=
  { f with asked := f.asked + 1 }

theorem place_ask (f : Frame) : f.ask.place = min (f.asked + 1) (f.items.length - 1) :=
  rfl

end Frame

/-- The root and the running loops, the innermost first. -/
structure Frames where
  root : Nat → Option Value
  loops : List Frame

namespace Frames

/-- What a name is bound to inside loops, the innermost first: the current item of the first
    one over it, else its value in the root, else nil. -/
def bound (root : Nat → Option Value) (key : Nat) : List Frame → Value
  | [] => Value.ofOption (root key)
  | f :: rest => if f.key = key then f.current else bound root key rest

/-- What a name is bound to. -/
def lookup (fs : Frames) (key : Nat) : Value :=
  bound fs.root key fs.loops

/-- Carries out one operation. -/
def perform (fs : Frames) : Scopes.Operation → Scopes.Answer × Frames
  | .enter key items =>
    if h : items = [] then (.entered false, fs)
    else (.entered true, { fs with loops := ⟨key, items, h, 0⟩ :: fs.loops })
  | .advance =>
    match fs.loops with
    | [] => (.advanced none, fs)
    | f :: rest => (.advanced (some f.hasNext), { fs with loops := f.ask :: rest })
  | .pop => (.popped (!fs.loops.isEmpty), { fs with loops := fs.loops.tail })
  | .lookup key => (.found (fs.lookup key), fs)

end Frames

open Scopes (Operation Answer)

namespace History

variable {σ τ : Type}

/-- Where operations lead to, one after another. -/
def after (perform : σ → Operation → Answer × σ) (s : σ) (ops : List Operation) : σ :=
  ops.foldl (fun s op => (perform s op).2) s

theorem after_append (perform : σ → Operation → Answer × σ) (s : σ) (ops more : List Operation) :
    after perform s (ops ++ more) = after perform (after perform s ops) more :=
  List.foldl_append

/-- What operations answer, one after another. -/
def answers (perform : σ → Operation → Answer × σ) (s : σ) : List Operation → List Answer
  | [] => []
  | op :: ops => (perform s op).1 :: answers perform (perform s op).2 ops

/-- Where every operation keeps two machines in step, with the same answer from both, so does
    a history. -/
theorem inStep {perform : σ → Operation → Answer × σ}
    {perform' : τ → Operation → Answer × τ} (InStep : σ → τ → Prop)
    (hstep : ∀ s t op, InStep s t →
      (perform s op).1 = (perform' t op).1 ∧ InStep (perform s op).2 (perform' t op).2)
    (ops : List Operation) {s : σ} {t : τ} (h : InStep s t) :
    answers perform s ops = answers perform' t ops ∧
      InStep (after perform s ops) (after perform' t ops) := by
  induction ops generalizing s t with
  | nil => exact ⟨rfl, h⟩
  | cons op ops ih =>
      rcases hstep s t op h with ⟨hanswer, hnext⟩
      rcases ih hnext with ⟨hanswers, hlast⟩
      exact ⟨List.cons_eq_cons.mpr ⟨hanswer, hanswers⟩, hlast⟩

end History

open History

/-- The scope binds the name of its frame, among the same items, and its cursor is behind the
    current one. -/
structure Scope.Tracks (s : Scope) (f : Frame) : Prop where
  key : s.key = f.key
  items : s.items = f.items
  cursor : s.cursor = f.place + 1

/-- Scopes in step with frames. -/
structure Scopes.InStep (s : Scopes) (fs : Frames) : Prop where
  root : s.root = fs.root
  loops : List.Forall₂ Scope.Tracks s.loops fs.loops

section Tracking

variable {scope : Scope} {f : Frame}

theorem Scope.Tracks.current (h : scope.Tracks f) : scope.current = f.current := by
  have hitem := scope.getElem?_items
  rw [h.items, h.cursor, Nat.add_sub_cancel, List.getElem?_eq_getElem f.place_lt,
    Option.some.injEq] at hitem
  exact hitem.symm

/-- A scope of a loop that has a next item moves on to it, and any other scope stays as it
    is. -/
theorem Scope.Tracks.advance (h : scope.Tracks f) :
    scope.advance.1 = f.hasNext ∧ scope.advance.2.Tracks f.ask ∧
      (f.hasNext = false → scope.advance.2 = scope) := by
  have hpos := List.length_pos_iff.mpr f.nonempty
  have hplace := h.cursor
  unfold Frame.place at hplace
  unfold Scope.advance
  split
  · rename_i next hnext
    rcases Scope.advance?_eq_some hnext with ⟨hkey, hitems, hcursor, hlt⟩
    rw [h.items] at hlt
    have hasked : f.asked < f.items.length - 1 := by omega
    refine ⟨(decide_eq_true hasked).symm, ⟨hkey.trans h.key, hitems.trans h.items, ?_⟩, ?_⟩
    · rw [hcursor, f.place_ask]
      omega
    · exact fun hno => absurd hasked (of_decide_eq_false hno)
  · rename_i hlast
    have hend := Scope.advance?_eq_none hlast
    rw [h.items] at hend
    have hasked : ¬ f.asked < f.items.length - 1 := by omega
    refine ⟨(decide_eq_false hasked).symm, ⟨h.key, h.items, ?_⟩, fun _ => rfl⟩
    rw [f.place_ask, hend]
    omega

variable {s : Scopes} {fs : Frames}

/-- Scopes in step with frames bind a name to the same value. -/
theorem lookup_eq_bound {root : Nat → Option Value} {loops : List Scope} {frames : List Frame}
    (h : List.Forall₂ Scope.Tracks loops frames) (key : Nat) :
    Scopes.lookup ⟨root, loops⟩ key = Frames.bound root key frames := by
  induction h with
  | nil => rfl
  | @cons scope f loops frames hscope _ ih =>
      have hpush := Scopes.lookup_push ⟨root, loops⟩ scope key
      rwa [ih, hscope.key, hscope.current] at hpush

theorem Scopes.InStep.lookup (h : s.InStep fs) (key : Nat) : s.lookup key = fs.lookup key := by
  rw [Frames.lookup, ← h.root]
  exact lookup_eq_bound h.loops key

/-- An operation keeps scopes and frames in step and gets the same answer from both. -/
theorem perform_inStep (h : s.InStep fs) (op : Operation) :
    (s.perform op).1 = (fs.perform op).1 ∧ (s.perform op).2.InStep (fs.perform op).2 := by
  rcases s with ⟨root, loops⟩
  rcases fs with ⟨root', frames⟩
  have hroot : root = root' := h.root
  have hloops : List.Forall₂ Scope.Tracks loops frames := h.loops
  cases op with
  | enter key items =>
      cases items with
      | nil => exact ⟨rfl, h⟩
      | cons item items => exact ⟨rfl, hroot, .cons ⟨rfl, rfl, rfl⟩ hloops⟩
  | advance =>
      cases hloops with
      | nil => exact ⟨rfl, h⟩
      | cons hscope hrest =>
          rcases hscope.advance with ⟨hanswer, hnext, _⟩
          exact ⟨congrArg (fun b => Answer.advanced (some b)) hanswer, hroot, .cons hnext hrest⟩
  | pop =>
      cases hloops with
      | nil => exact ⟨rfl, h⟩
      | cons _ hrest => exact ⟨rfl, hroot, hrest⟩
  | lookup key => exact ⟨congrArg Answer.found (h.lookup key), h⟩

/-- Histories keep scopes and frames in step and get the same answers from both. -/
theorem run_inStep (h : s.InStep fs) (ops : List Operation) :
    answers Scopes.perform s ops = answers Frames.perform fs ops ∧
      (after Scopes.perform s ops).InStep (after Frames.perform fs ops) :=
  inStep Scopes.InStep (fun _ _ op h => perform_inStep h op) ops h

end Tracking

/-- No operation changes the root. -/
theorem perform_root (s : Scopes) (op : Operation) : (s.perform op).2.root = s.root := by
  cases op with
  | enter key items => cases items with
    | nil => rfl
    | cons item items => rfl
  | advance =>
      rcases s with ⟨root, loops⟩
      cases loops with
      | nil => rfl
      | cons scope loops => rfl
  | pop => rfl
  | lookup key => rfl

theorem after_root (s : Scopes) (ops : List Operation) :
    (after Scopes.perform s ops).root = s.root := by
  induction ops generalizing s with
  | nil => rfl
  | cons op ops ih => exact (ih _).trans (perform_root s op)

/-- The scope of a loop that has begun is where a loop asked `n` times is. -/
theorem advanced_tracks {key : Nat} {items : List Value} {s : Scope}
    (h : Scope.begin? key items = some s) (hitems : items ≠ []) (n : Nat) :
    (s.advanced n).Tracks ⟨key, items, hitems, n⟩ := by
  induction n with
  | zero =>
      rcases Scope.begin?_eq_some h with ⟨hkey, hall, hcursor⟩
      refine ⟨hkey, hall, hcursor.trans ?_⟩
      rw [Frame.place, Nat.zero_min]
  | succ n ih => exact ih.advance.2.1

section Programs

variable {p : Program} {s t : State}

/-- What a step does with scopes is a history. -/
theorem step_history (h : p.step s = .next t) :
    ∃ ops, t.scopes = after Scopes.perform s.scopes ops := by
  rcases Program.step_next h with ⟨i, _, hi⟩
  cases hi with
  | @enter key _ item items _ _ => exact ⟨[.enter key (item :: items)], rfl⟩
  | @again _ scope _ next hloops hnext =>
      refine ⟨[.advance], ?_⟩
      simp only [after, List.foldl_cons, List.foldl_nil, Scopes.perform, Scopes.innermost?, hloops,
        List.head?_cons, Scope.advance, hnext]
  | @leave _ scope _ hloops hlast =>
      -- A loop without a next item refuses it, and its scope is removed.
      refine ⟨[.advance, .pop], ?_⟩
      simp only [after, List.foldl_cons, List.foldl_nil, Scopes.perform, Scopes.innermost?, hloops,
        List.head?_cons, Scope.advance, hlast, Scopes.replace, Scopes.pop, List.tail_cons]
  | _ => exact ⟨[], rfl⟩

/-- What a run does with scopes is a history. -/
theorem reaches_history (h : p.Reaches s t) :
    ∃ ops, t.scopes = after Scopes.perform s.scopes ops := by
  refine h.invariant (fun u => ∃ ops, u.scopes = after Scopes.perform s.scopes ops) ?_ ⟨[], rfl⟩
  rintro a b ⟨ops, hops⟩ hstep
  rcases step_history hstep with ⟨more, hmore⟩
  exact ⟨ops ++ more, by rw [hmore, hops, after_append]⟩

end Programs

section Nesting

variable {base s : Scopes}

/-- There are some scopes above those of the base. -/
def Scopes.Over (base s : Scopes) : Prop :=
  ∃ above, above ≠ [] ∧ s = ⟨base.root, above ++ base.loops⟩

theorem perform_over (h : base.Over s) (op : Operation)
    (hdepth : base.depth < (s.perform op).2.depth) : base.Over (s.perform op).2 := by
  rcases h with ⟨above, habove, rfl⟩
  cases op with
  | enter key items =>
      cases items with
      | nil => exact ⟨above, habove, rfl⟩
      | cons item items => exact ⟨_ :: above, List.cons_ne_nil _ _, rfl⟩
  | advance =>
      cases above with
      | nil => exact absurd rfl habove
      | cons scope above => exact ⟨_ :: above, List.cons_ne_nil _ _, rfl⟩
  | pop =>
      cases above with
      | nil => exact absurd rfl habove
      | cons scope above =>
          refine ⟨above, ?_, rfl⟩
          -- If this was the last one above the base, the base is all that is left.
          rintro rfl
          exact absurd hdepth (Nat.lt_irrefl _)
  | lookup key => exact ⟨above, habove, rfl⟩

theorem after_over (ops : List Operation) (h : base.Over s)
    (hdepth : ∀ front, front <+: ops → base.depth < (after Scopes.perform s front).depth) :
    base.Over (after Scopes.perform s ops) := by
  induction ops generalizing s with
  | nil => exact h
  | cons op ops ih =>
      refine ih (perform_over h op (hdepth [op] ⟨ops, rfl⟩)) fun front hfront => ?_
      exact hdepth (op :: front) (List.cons_prefix_cons.mpr ⟨rfl, hfront⟩)

/-- A scope that is pushed and popped leaves the scopes as they were. -/
theorem after_enter_pop {key : Nat} {items : List Value} {ops : List Operation}
    (hitems : items ≠ [])
    (hdepth : ∀ front, front <+: ops →
      base.depth < (after Scopes.perform base (.enter key items :: front)).depth)
    (hlast : (after Scopes.perform base (.enter key items :: ops)).depth = base.depth + 1) :
    after Scopes.perform base (.enter key items :: ops ++ [.pop]) = base := by
  have hpushed : base.Over (base.perform (.enter key items)).2 := by
    cases items with
    | nil => exact absurd rfl hitems
    | cons item items => exact ⟨[_], List.cons_ne_nil _ _, rfl⟩
  -- One scope is above the base at the end, and it is popped.
  rcases after_over ops hpushed hdepth with ⟨above, _, habove⟩
  have hall : after Scopes.perform base (.enter key items :: ops)
      = ⟨base.root, above ++ base.loops⟩ := habove
  rw [hall, Scopes.depth, Scopes.depth, List.length_append] at hlast
  have hone : above.length = 1 := by omega
  rcases List.length_eq_one_iff.mp hone with ⟨scope, rfl⟩
  rw [after_append, hall]
  rfl

end Nesting

/-- The cursor of a scope is among its items, and right behind the current one. -/
def Scope.AtCursor (s : Scope) : Prop :=
  1 ≤ s.cursor ∧ s.cursor ≤ s.items.length ∧ s.items[s.cursor - 1]? = some s.current

theorem Scope.atCursor (s : Scope) : s.AtCursor := by
  refine ⟨s.cursor_pos, ?_, s.getElem?_items⟩
  rw [s.length_items]
  exact Nat.le_add_right _ _

/-- Whatever is done to scopes, they answer as loops do that count how often they were asked
    for the next item, and bind each name to the current item of the innermost loop over it,
    else as the root does, which stays as it is. What a program does with scopes is no more
    than this. A loop over `n` items has a next one for the first `n - 1` times that it is
    asked, and is where it is ever after. Without a loop there is nothing to pop, and a scope
    that is pushed and popped again leaves the scopes as they were, whatever was done above
    it. -/
theorem scopes_refine :
    (∀ (root : Nat → Option Value) (ops : List Operation),
      let s := after Scopes.perform (.ofRoot root) ops
      let fs := after Frames.perform ⟨root, []⟩ ops
      answers Scopes.perform (.ofRoot root) ops = answers Frames.perform ⟨root, []⟩ ops ∧
        s.InStep fs ∧ s.root = root ∧ 1 ≤ s.depth ∧ (∀ key, s.lookup key = fs.lookup key) ∧
        ∀ scope ∈ s.loops, scope.AtCursor) ∧
    (∀ (p : Program) (root : Nat → Option Value) (s t : State), s.scopes = .ofRoot root →
      p.Reaches s t → t.scopes.root = root ∧ 1 ≤ t.scopes.depth ∧
        (∀ scope ∈ t.scopes.loops, scope.AtCursor) ∧
        ∃ ops, t.scopes = after Scopes.perform (.ofRoot root) ops) ∧
    (∀ key items s, Scope.begin? key items = some s → ∀ n,
      (s.advanced n).items = items ∧ (s.advanced n).cursor = min (n + 1) items.length ∧
        items[min n (items.length - 1)]? = some (s.advanced n).current ∧
        (s.advanced n).advance.1 = decide (n < items.length - 1) ∧
        (items.length - 1 ≤ n → s.advanced (n + 1) = s.advanced n)) ∧
    (∀ s : Scopes, s.loops = [] → s.perform .pop = (.popped false, s)) ∧
    ∀ (s : Scopes) key items ops, items ≠ [] →
      (∀ front, front <+: ops →
        s.depth < (after Scopes.perform s (.enter key items :: front)).depth) →
      (after Scopes.perform s (.enter key items :: ops)).depth = s.depth + 1 →
      after Scopes.perform s (.enter key items :: ops ++ [.pop]) = s := by
  refine ⟨fun root ops => ?_, ?_, ?_, ?_, fun s key items ops => after_enter_pop⟩
  · have hstart : (Scopes.ofRoot root).InStep ⟨root, []⟩ := ⟨rfl, .nil⟩
    rcases run_inStep hstart ops with ⟨hanswers, hlast⟩
    exact ⟨hanswers, hlast, after_root _ ops, Nat.le_add_left 1 _, hlast.lookup,
      fun scope _ => scope.atCursor⟩
  · intro p root s t hs h
    rcases reaches_history h with ⟨ops, hops⟩
    rw [hs] at hops
    exact ⟨hops ▸ after_root _ ops, Nat.le_add_left 1 _, fun scope _ => scope.atCursor, ops, hops⟩
  · intro key items s hbegin n
    have hitems : items ≠ [] := by
      rintro rfl
      exact nomatch hbegin
    have htracks := advanced_tracks hbegin hitems n
    rcases htracks.advance with ⟨hanswer, _, hstays⟩
    have hplace : Frame.place ⟨key, items, hitems, n⟩ = min n (items.length - 1) := rfl
    have hpos := List.length_pos_iff.mpr hitems
    refine ⟨htracks.items, ?_, ?_, hanswer, fun hn => hstays ?_⟩
    · rw [htracks.cursor, hplace]
      omega
    · rw [htracks.current, ← hplace]
      exact List.getElem?_eq_getElem _
    · exact decide_eq_false (Nat.not_lt.mpr hn)
  · rintro ⟨root, loops⟩ rfl
    rfl

/-- A loop inside a loop, both over one name and with a third one inside that is begun and
    left again, gives the outer item back. -/
theorem scopes_refine_shadowed :
    let s := after Scopes.perform (.ofRoot fun _ => none) [.enter 0 [.integer 1, .integer 2]]
    let ops := [.advance, .enter 0 [.integer 5], .lookup 0, .pop, .lookup 0]
    (∀ front, front <+: ops →
      s.depth < (after Scopes.perform s (.enter 0 [.integer 3, .integer 4] :: front)).depth) ∧
      (after Scopes.perform s (.enter 0 [.integer 3, .integer 4] :: ops)).depth = s.depth + 1 ∧
      after Scopes.perform s (.enter 0 [.integer 3, .integer 4] :: ops ++ [.pop]) = s := by
  intro s ops
  have hfronts : ∀ front ∈ ops.inits,
      s.depth < (after Scopes.perform s (.enter 0 [.integer 3, .integer 4] :: front)).depth := by
    decide
  have hdepth := fun front hfront => hfronts front ((List.mem_inits front ops).mpr hfront)
  have hlast : (after Scopes.perform s (.enter 0 [.integer 3, .integer 4] :: ops)).depth
      = s.depth + 1 := rfl
  exact ⟨hdepth, hlast,
    scopes_refine.2.2.2.2 s 0 _ ops (List.cons_ne_nil _ _) hdepth hlast⟩

end Stencil
