import Mathlib.Algebra.Ring.Parity
import Mathlib.Data.List.Induction
import Stencil.Proofs.Rendering.Stages
import Stencil.Proofs.Vars

/-!
# The History of a Session

What a session is after some lines is told by the lines alone, without carrying them out.

A session keeps two switches and the variables. Each line can turn one switch, or make one
assignment, or leave all as it is, and which of these it does depends on nothing but the
line. So a switch is on where its word came an odd number of times, and the variables are
those of the assignments among the lines, taken in order. That one line does this is
`effect_of_read`; that it adds up is the induction `follows_of_after?`, along the lines
that are still to come, with those behind as what the invariant speaks of.

Only a quit ends a session. Until the first one every line is answered, and after it no
line has any effect.

## Main definitions

* `timesTyped`: How often a word comes among some lines.
* `Session.after?`: The session after some lines.
* `Session.Follows`: A session is as some lines make it.

## Theorems

* `Vars.get?_ofAssignments`: A name has the value of the last assignment to it.
* `Session.effect_of_read`: What one line changes.
* `Session.exists_after?`: Every line is answered until a quit.
* `Session.follows_of_after?`: A session is as the lines make it.
* `Session.runLines_append`, `Session.runLines_quit`: What is printed for lines in two parts.
* `session_history`: A line in a session of any length.
-/

namespace Stencil

/-- How often a word comes among some lines, with or without blanks around it. -/
def timesTyped (word : String) (lines : List String) : Nat :=
  (lines.map Text.trim).count word

namespace Vars

theorem ofAssignments_concat (as : List Assignment) (a : Assignment) :
    ofAssignments (as ++ [a]) = (ofAssignments as).assign a := by
  rw [ofAssignments, List.foldl_append, List.foldl_cons, List.foldl_nil, ← ofAssignments]

/-- A name has the value of the last assignment to it, and none without an assignment. -/
theorem get?_ofAssignments (as : List Assignment) (name : String) :
    (ofAssignments as).get? name =
      (as.filter (·.key = name)).getLast?.map Assignment.value := by
  induction as using List.reverseRecOn with
  | nil => rfl
  | append_singleton as a ih =>
      rw [ofAssignments_concat, assign, get?_insert, ih, List.filter_append]
      by_cases hkey : a.key = name
      · have hlast : [a].filter (·.key = name) = [a] :=
          List.filter_cons_of_pos (decide_eq_true hkey)
        rw [if_pos hkey.symm, hlast, List.getLast?_concat, Option.map_some]
      · have hnone : [a].filter (·.key = name) = [] :=
          List.filter_cons_of_neg fun h => hkey (of_decide_eq_true h)
        rw [if_neg (Ne.symm hkey), hnone, List.append_nil]

end Vars

theorem timesTyped_concat (word : String) (lines : List String) (line : String) :
    timesTyped word (lines ++ [line]) =
      timesTyped word lines + if Text.trim line = word then 1 else 0 := by
  rw [timesTyped, timesTyped, List.map_append, List.map_singleton, List.count_append,
    List.count_singleton]
  simp only [beq_iff_eq]

theorem assignments_concat (lines : List String) (line : String) :
    (lines ++ [line]).filterMap assignment? =
      lines.filterMap assignment? ++ (assignment? line).toList := by
  rw [List.filterMap_append]
  cases h : assignment? line with
  | none => rw [List.filterMap_cons_none h, List.filterMap_nil, Option.toList_none]
  | some a => rw [List.filterMap_cons_some h, List.filterMap_nil, Option.toList_some]

/-- A line that does not start with the set command is no assignment. -/
theorem assignment?_eq_none {line : String}
    (h : Text.hasFront Session.setWord (Text.trim line) = false) : assignment? line = none :=
  if_neg (Bool.eq_false_iff.mp h)

namespace Printed

theorem empty_append (p : Printed) : empty.append p = p := by
  simp only [append, empty, String.empty_append]

theorem append_assoc (p q r : Printed) : (p.append q).append r = p.append (q.append r) := by
  simp only [append, String.append_assoc]

end Printed

namespace Session

variable {s s' t : Session} {line : String} {front back lines : List String} {what : Line}
  {printed : Printed}

/-- The session after some lines, if none of them quits it. -/
def after? : Session → List String → Option Session
  | s, [] => some s
  | s, line :: lines =>
    match s.answer? line with
    | some (_, s) => s.after? lines
    | none => none

/-- The session is as some lines make it. A stage is shown where its word came an odd number
    of times, and the variables are those of the assignments among the lines. -/
structure Follows (s : Session) (lines : List String) : Prop where
  tokens : s.stages.tokens = true ↔ Odd (timesTyped ":tokens" lines)
  listing : s.stages.listing = true ↔ Odd (timesTyped ":disasm" lines)
  vars : s.vars = .ofAssignments (lines.filterMap assignment?)

/-- What one line changes: the switch whose word it is, or the variable that it assigns. -/
structure Effect (s : Session) (line : String) (s' : Session) : Prop where
  tokens : s'.stages.tokens = (s.stages.tokens ^^ decide (Text.trim line = ":tokens"))
  listing : s'.stages.listing = (s.stages.listing ^^ decide (Text.trim line = ":disasm"))
  vars : s'.vars = (assignment? line).toList.foldl Vars.assign s.vars

/-- A line that is none of the words and no assignment may leave the session as it is. -/
theorem Effect.self (htokens : Text.trim line ≠ ":tokens") (hlisting : Text.trim line ≠ ":disasm")
    (hvars : assignment? line = none) : s.Effect line s := by
  refine ⟨?_, ?_, ?_⟩
  · rw [decide_eq_false htokens, Bool.xor_false]
  · rw [decide_eq_false hlisting, Bool.xor_false]
  · rw [hvars, Option.toList_none, List.foldl_nil]

theorem effect_of_read (h : s.read line = (what, s')) : s.Effect line s' := by
  cases reads_of_read h with
  | tokens hword =>
      have hvars : assignment? line = none := assignment?_eq_none (by rw [hword]; decide)
      refine ⟨?_, ?_, ?_⟩
      · rw [decide_eq_true hword, Bool.xor_true]
      · rw [decide_eq_false (by rw [hword]; decide), Bool.xor_false]
      · rw [hvars, Option.toList_none, List.foldl_nil]
  | listing hword =>
      have hvars : assignment? line = none := assignment?_eq_none (by rw [hword]; decide)
      refine ⟨?_, ?_, ?_⟩
      · rw [decide_eq_false (by rw [hword]; decide), Bool.xor_false]
      · rw [decide_eq_true hword, Bool.xor_true]
      · rw [hvars, Option.toList_none, List.foldl_nil]
  | quit hword =>
      exact .self (by rw [hword]; decide) (by rw [hword]; decide)
        (assignment?_eq_none (by rw [hword]; decide))
  | assign ha =>
      have hset := hasFront_of_assignment? ha
      have htokens : Text.trim line ≠ ":tokens" := Text.ne_of_hasFront hset (by decide)
      have hlisting : Text.trim line ≠ ":disasm" := Text.ne_of_hasFront hset (by decide)
      refine ⟨?_, ?_, ?_⟩
      · rw [decide_eq_false htokens, Bool.xor_false]
      · rw [decide_eq_false hlisting, Bool.xor_false]
      · rw [ha, Option.toList_some, List.foldl_cons, List.foldl_nil]
  | refused hset hvars =>
      have htokens : Text.trim line ≠ ":tokens" := Text.ne_of_hasFront hset (by decide)
      have hlisting : Text.trim line ≠ ":disasm" := Text.ne_of_hasFront hset (by decide)
      exact .self htokens hlisting hvars
  | template hline =>
      have htokens : Text.trim line ≠ ":tokens" := fun h => hline (.inl h)
      have hlisting : Text.trim line ≠ ":disasm" := fun h => hline (.inr (.inl h))
      have hvars : assignment? line = none := if_neg fun h => hline (.of_set h)
      exact .self htokens hlisting hvars

/-- A line that is none of the words and no assignment changes nothing. -/
theorem Effect.eq_self (h : s.Effect line s') (htokens : Text.trim line ≠ ":tokens")
    (hlisting : Text.trim line ≠ ":disasm") (hvars : assignment? line = none) : s' = s := by
  have h1 : s'.stages.tokens = s.stages.tokens := by
    rw [h.tokens, decide_eq_false htokens, Bool.xor_false]
  have h2 : s'.stages.listing = s.stages.listing := by
    rw [h.listing, decide_eq_false hlisting, Bool.xor_false]
  have h3 : s'.vars = s.vars := by
    rw [h.vars, hvars]
    rfl
  rcases s with ⟨⟨tokens, listing⟩, vars⟩
  rcases s' with ⟨⟨tokens', listing'⟩, vars'⟩
  cases h1
  cases h2
  cases h3
  rfl

theorem start_follows : start.Follows [] := by
  refine ⟨?_, ?_, rfl⟩
  · decide
  · decide

/-- A switch that is turned when its word comes is on where it came an odd number of
    times. -/
theorem odd_timesTyped_concat {on : Bool} {word : String}
    (h : on = true ↔ Odd (timesTyped word lines)) :
    (on ^^ decide (Text.trim line = word)) = true ↔ Odd (timesTyped word (lines ++ [line])) := by
  rw [timesTyped_concat]
  by_cases hword : Text.trim line = word
  · rw [if_pos hword, Nat.odd_add_one, ← h, decide_eq_true hword, Bool.xor_true, Bool.not_eq_true',
      Bool.not_eq_true]
  · rw [if_neg hword, Nat.add_zero, ← h, decide_eq_false hword, Bool.xor_false]

/-- What the lines make of a session goes on with one more line. -/
theorem Follows.concat (h : s.Follows lines) (heffect : s.Effect line s') :
    s'.Follows (lines ++ [line]) := by
  refine ⟨?_, ?_, ?_⟩
  · rw [heffect.tokens]
    exact odd_timesTyped_concat h.tokens
  · rw [heffect.listing]
    exact odd_timesTyped_concat h.listing
  · rw [heffect.vars, h.vars, assignments_concat, Vars.ofAssignments, Vars.ofAssignments,
      List.foldl_append]

theorem answer?_eq_none_iff : s.answer? line = none ↔ Text.trim line = ":quit" := by
  unfold answer?
  constructor
  · intro h
    split at h
    · rename_i hread
      cases reads_of_read hread with
      | quit hword => exact hword
    · exact nomatch h
    · exact nomatch h
  · intro hword
    have hread : s.read line = (.quit, s) := by
      unfold read
      rw [hword]
      rfl
    rw [hread]

/-- A line that is answered has its effect. -/
theorem effect_of_answer? (h : s.answer? line = some (printed, s')) : s.Effect line s' := by
  unfold answer? at h
  split at h
  · exact nomatch h
  · rename_i hread
    cases h
    exact effect_of_read hread
  · rename_i hread
    cases h
    exact effect_of_read hread

/-- Every line is answered until a quit. -/
theorem exists_after? (h : ∀ line ∈ lines, Text.trim line ≠ ":quit") :
    ∃ t, s.after? lines = some t := by
  induction lines generalizing s with
  | nil => exact ⟨s, rfl⟩
  | cons line lines ih =>
      cases hanswer : s.answer? line with
      | none => exact absurd (answer?_eq_none_iff.mp hanswer) (h line List.mem_cons_self)
      | some answer =>
          rcases ih (s := answer.2) fun l hl => h l (List.mem_cons_of_mem _ hl) with ⟨t, ht⟩
          refine ⟨t, ?_⟩
          rw [after?, hanswer]
          exact ht

/-- A session is as the lines make it. The induction is on the lines that are still to
    come. -/
theorem follows_of_after? (h : s.Follows front) (hafter : s.after? back = some t) :
    t.Follows (front ++ back) := by
  induction back generalizing s front with
  | nil =>
      cases hafter
      rwa [List.append_nil]
  | cons line back ih =>
      rw [after?] at hafter
      cases hanswer : s.answer? line with
      | none =>
          rw [hanswer] at hafter
          exact nomatch hafter
      | some answer =>
          rw [hanswer] at hafter
          rw [List.append_cons]
          exact ih (h.concat (effect_of_answer? hanswer)) hafter

/-- What is printed for lines in two parts. -/
theorem runLines_append (h : s.after? front = some t) :
    s.runLines (front ++ back) = (s.runLines front).append (t.runLines back) := by
  induction front generalizing s with
  | nil =>
      cases h
      rw [List.nil_append, runLines, Printed.empty_append]
  | cons line front ih =>
      rw [after?] at h
      rw [List.cons_append, runLines, runLines]
      cases hanswer : s.answer? line with
      | none =>
          rw [hanswer] at h
          exact nomatch h
      | some answer =>
          rw [hanswer] at h
          simp only
          rw [ih h, Printed.append_assoc]

/-- After a quit no line has any effect. -/
theorem runLines_quit (h : Text.trim line = ":quit") :
    s.runLines (front ++ line :: back) = s.runLines front := by
  induction front generalizing s with
  | nil =>
      rw [List.nil_append, runLines, runLines, answer?_eq_none_iff.mpr h]
  | cons l front ih =>
      rw [List.cons_append, runLines, runLines]
      cases s.answer? l with
      | none => rfl
      | some answer => simp only [ih]

/-- How a session answers a line that does not quit it. Neither a template nor a set command
    that is refused changes the session, but the latter is a command. -/
structure Answers (s : Session) (line : String) (printed : Printed) (t : Session) : Prop where
  answer : s.answer? line = some (printed, t)
  unchanged : Text.trim line ≠ ":tokens" → Text.trim line ≠ ":disasm" → assignment? line = none →
    t = s
  set : Text.hasFront setWord (Text.trim line) = true →
    ∃ feedback, s.read line = (.command feedback, t)
  template : ¬ IsCommand line → s.read line = (.template, t) ∧
    printed = ⟨resultText line (render line s.vars), s.stages.report line⟩

theorem answers_of_answer? (h : s.answer? line = some (printed, t)) : s.Answers line printed t := by
  refine ⟨h, (effect_of_answer? h).eq_self, fun hset => ?_, fun hline => ?_⟩
  · unfold answer? at h
    split at h
    · exact nomatch h
    · rename_i feedback s' hread
      cases h
      exact ⟨feedback, hread⟩
    · rename_i s' hread
      exact absurd (.of_set hset) (read_eq_template_iff.mp hread).1
  · rw [answer?_of_template hline] at h
    cases h
    exact ⟨read_eq_template_iff.mpr ⟨hline, rfl⟩, rfl⟩

end Session

/-- A line in a session, with lines in front of it none of which quits. The session that it
    finds is the one that the lines in front make, each name having the value of the last
    assignment to it. If the line quits, nothing behind it has any effect; else it is
    answered, and the session goes on. -/
theorem session_history (front back : List String) (line : String)
    (hfront : ∀ l ∈ front, Text.trim l ≠ ":quit") :
    ∃ s, Session.start.after? front = some s ∧ s.Follows front ∧
      (∀ name, s.vars.get? name =
        ((front.filterMap assignment?).filter (·.key = name)).getLast?.map Assignment.value) ∧
      (∀ l, (assignment? l).isSome ↔
        Text.hasFront Session.setWord (Text.trim l) = true ∧ '=' ∈ (Text.trim l).toList) ∧
      (Text.trim line = ":quit" →
        Session.start.runLines (front ++ line :: back) = Session.start.runLines front) ∧
      (Text.trim line ≠ ":quit" →
        ∃ printed t, s.Answers line printed t ∧
          Session.start.runLines (front ++ line :: back) =
            (Session.start.runLines front).append (printed.append (t.runLines back))) := by
  rcases Session.exists_after? (s := .start) hfront with ⟨s, hs⟩
  have hfollows : s.Follows front := Session.follows_of_after? Session.start_follows hs
  refine ⟨s, hs, hfollows, fun name => ?_, fun l => assignment?_isSome,
    fun hquit => Session.runLines_quit hquit, fun hquit => ?_⟩
  · rw [hfollows.vars, Vars.get?_ofAssignments]
  · cases hanswer : s.answer? line with
    | none => exact absurd (Session.answer?_eq_none_iff.mp hanswer) hquit
    | some answer =>
        refine ⟨answer.1, answer.2, Session.answers_of_answer? hanswer, ?_⟩
        rw [Session.runLines_append hs, Session.runLines, hanswer]

/-- The word of the set command alone is a template, and without an equals sign the command
    sets nothing. -/
theorem session_history_mixed :
    (∀ l ∈ [" :tokens", ":set x=1", ":set", ":set x", ":set y =2"], Text.trim l ≠ ":quit") ∧
      ∃ s, Session.start.after? [" :tokens", ":set x=1", ":set", ":set x", ":set y =2"] = some s ∧
        s.stages.tokens = true ∧ s.vars.get? "x" = some (.integer 1) ∧
        s.vars.get? "y " = some (.integer 2) := by
  have hfront : ∀ l ∈ [" :tokens", ":set x=1", ":set", ":set x", ":set y =2"],
      Text.trim l ≠ ":quit" := by decide +kernel
  rcases session_history _ [] "[% x %]" hfront with ⟨s, hs, hfollows, hvalues, _⟩
  refine ⟨hfront, s, hs, hfollows.tokens.mpr ?_, ?_, ?_⟩
  · decide +kernel
  · rw [hvalues]
    decide +kernel
  · rw [hvalues]
    decide +kernel

end Stencil
