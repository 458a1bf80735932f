import Stencil.Proofs.Rendering
import Stencil.Proofs.Session.Histories

/-!
# Setting Variables in Two Ways

A variable that is set in a session and one that is set in the arguments of a call.

The argument of `--set` is an assignment as it stands. A line with the set command is not
taken as it stands: blanks are removed at both ends, then the word of the command, then
blanks again. Where an assignment has no blanks at its ends, removing them changes nothing.
The word is removed however often it comes, so an assignment that itself starts with the
word loses it. `setArgument` is what is left of it, and the variables of the lines are those of
what is left. They are those of the assignments themselves, to which the arguments come,
except where an assignment starts with the word.

## Theorems

* `Text.trim_append`: A front without blanks at its start keeps a trimmed text trimmed.
* `Session.assignment?_setWord`: What a line with the set command assigns.
* `RenderRequest.read?_set`: What arguments that set variables ask for.
* `set_lines_vars`: The variables that lines set, and those that arguments ask for.
* `set_lines_vars_word`: The word of the command at the start of a key is lost.
-/

namespace Stencil

namespace Text

variable {s : String} {cs ds : List Char}

theorem toList_trim (s : String) : (trim s).toList = trimEnd (trimStart s.toList) := by
  rw [trim, String.toList_ofList]

theorem trimStart_sublist (cs : List Char) : (trimStart cs).Sublist cs :=
  List.dropWhile_sublist _

theorem trimEnd_sublist (cs : List Char) : (trimEnd cs).Sublist cs := by
  have h := (trimStart_sublist cs.reverse).reverse
  rwa [List.reverse_reverse] at h

/-- Where nothing is removed at either end, nothing is removed at the end. -/
theorem trimEnd_eq_self (h : trim s = s) : trimEnd s.toList = s.toList := by
  have hboth : trimEnd (trimStart s.toList) = s.toList := by rw [← toList_trim, h]
  have hstart : trimStart s.toList = s.toList := by
    refine (trimStart_sublist _).eq_of_length_le ?_
    calc s.toList.length = (trimEnd (trimStart s.toList)).length := by rw [hboth]
      _ ≤ (trimStart s.toList).length := (trimEnd_sublist _).length_le
  rwa [hstart] at hboth

theorem trimStart_append (h : trimStart cs = cs) (hne : cs ≠ []) :
    trimStart (cs ++ ds) = cs ++ ds := by
  cases cs with
  | nil => exact absurd rfl hne
  | cons c cs =>
      have hc : ¬ isBlank c = true := by
        intro hblank
        rw [trimStart, List.dropWhile_cons_of_pos hblank] at h
        have hlength := (trimStart_sublist cs).length_le
        rw [trimStart, h, List.length_cons] at hlength
        omega
      rw [List.cons_append, trimStart, List.dropWhile_cons_of_neg hc]

theorem trimEnd_append (h : trimEnd ds = ds) (hne : ds ≠ []) :
    trimEnd (cs ++ ds) = cs ++ ds := by
  have hreverse : trimStart ds.reverse = ds.reverse := List.reverse_eq_iff.mp h
  have hne' : ds.reverse ≠ [] := fun hnil => hne (List.reverse_eq_nil_iff.mp hnil)
  rw [trimEnd, List.reverse_append, trimStart_append hreverse hne', List.reverse_append,
    List.reverse_reverse, List.reverse_reverse]

/-- A front that starts with no blank keeps a trimmed text trimmed. -/
theorem trim_append {front : String} (hfront : trimStart front.toList = front.toList)
    (hne : front.toList ≠ []) (h : trim s = s) (hs : s.toList ≠ []) :
    trim (front ++ s) = front ++ s := by
  refine String.toList_inj.mp ?_
  rw [toList_trim, String.toList_append, trimStart_append hfront hne,
    trimEnd_append (trimEnd_eq_self h) hs]

end Text

namespace Session

variable {a : String}

/-- Nothing is removed around a line that sets a trimmed text. -/
theorem trim_setWord (h : Text.trim a = a) (hne : a.toList ≠ []) :
    Text.trim (setWord ++ a) = setWord ++ a :=
  Text.trim_append (by decide) (by decide) h hne

theorem setArgument_setWord (a : String) : setArgument (setWord ++ a) = setArgument a := by
  unfold setArgument
  rw [String.toList_append]
  rfl

/-- A trimmed text that does not start with the word is set as it stands. -/
theorem setArgument_eq_self (h : Text.trim a = a) (hword : Text.hasFront setWord a = false) :
    setArgument a = a := by
  have hdrop : dropSetWords a.toList = a.toList := by
    refine dropSetWords.eq_2 _ fun rest hrest => ?_
    have hfront : Text.hasFront setWord a = true := by
      rw [Text.hasFront, hrest]
      rfl
    rw [hfront] at hword
    cases hword
  rw [setArgument, hdrop, String.ofList_toList, h]

/-- What a line with the set command assigns. -/
theorem assignment?_setWord (h : Text.trim a = a) (hne : a.toList ≠ []) :
    assignment? (setWord ++ a) = Assignment.read? (setArgument a) := by
  have hfront : Text.hasFront setWord (setWord ++ a) = true := Text.hasFront_iff.mpr ⟨a, rfl⟩
  rw [assignment?, trim_setWord h hne, if_pos hfront, setArgument_setWord]

end Session

/-- The option to set a variable, with its value behind the equals sign. -/
theorem Word.read_set (a : String) :
    Word.read ("--set=" ++ a) = .complete (·.addAssignment? a) := by
  have hne : ∀ word, Text.hasFront "--set=" word = false → "--set=" ++ a ≠ word :=
    fun _ => Text.ne_of_hasFront (Text.hasFront_iff.mpr ⟨a, rfl⟩)
  have hinclude : Text.dropFront? "--include=" ("--set=" ++ a) = none := by
    rw [Text.dropFront?, Text.hasFront, String.toList_append]
    rfl
  have hset : Text.dropFront? "--set=" ("--set=" ++ a) = some a :=
    Text.dropFront?_eq_some_iff.mpr rfl
  rw [Word.read, if_neg (hne _ (by decide)), if_neg (hne _ (by decide)),
    if_neg (hne _ (by decide)), if_neg (not_or.mpr ⟨hne _ (by decide), hne _ (by decide)⟩),
    if_neg (hne _ (by decide)), hinclude, hset]

namespace RenderRequest

/-- What arguments that set variables ask for. -/
theorem read?_set {as : List String} (h : ∀ a ∈ as, '=' ∈ a.toList) (r : RenderRequest) :
    read? (as.map ("--set=" ++ ·)) r =
      some { r with assignments := r.assignments ++ as.filterMap Assignment.read? } := by
  induction as generalizing r with
  | nil => rw [List.map_nil, read?, List.filterMap_nil, List.append_nil]
  | cons a as ih =>
      rcases List.forall_mem_cons.mp h with ⟨ha, has⟩
      rcases Option.isSome_iff_exists.mp (Assignment.read?_isSome.mpr ha) with ⟨b, hb⟩
      rw [List.map_cons, read?, Word.read_set]
      simp only [addAssignment?, hb, Option.map_some, Option.bind_some]
      rw [ih has, List.filterMap_cons_some hb, List.append_assoc, List.singleton_append]

end RenderRequest

/-- The variables that lines of a session set are those of what is left of each assignment
    without the word of the command at its start, with the last one for a key. A template
    then has the result of these variables. Where no assignment starts with the word, they
    are those of the assignments themselves, which is what arguments come to that set them. -/
theorem set_lines_vars (as : List String) (template : String)
    (has : ∀ a ∈ as, '=' ∈ a.toList ∧ Text.trim a = a) (htemplate : ¬ IsCommand template) :
    (∃ s, Session.start.after? (as.map (Session.setWord ++ ·)) = some s ∧
      s.vars = .ofAssignments ((as.map Session.setArgument).filterMap Assignment.read?) ∧
      ((∀ a ∈ as, Text.hasFront Session.setWord a = false) →
        s.vars = .ofAssignments (as.filterMap Assignment.read?)) ∧
      s.answer? template =
        some (⟨Session.resultText template (render template s.vars),
          s.stages.report template⟩, s)) ∧
    ∀ bs : List String, (∀ b ∈ bs, '=' ∈ b.toList) →
      ∃ r, RenderRequest.read? (bs.map ("--set=" ++ ·)) .empty = some r ∧
        r.vars = .ofAssignments (bs.filterMap Assignment.read?) := by
  have hne : ∀ a ∈ as, a.toList ≠ [] := fun a ha => List.ne_nil_of_mem (has a ha).1
  have hquit : ∀ line ∈ as.map (Session.setWord ++ ·), Text.trim line ≠ ":quit" := by
    intro line hline
    rcases List.mem_map.mp hline with ⟨a, ha, rfl⟩
    rw [Session.trim_setWord (has a ha).2 (hne a ha)]
    exact Text.ne_of_hasFront (Text.hasFront_iff.mpr ⟨a, rfl⟩) (by decide)
  rcases Session.exists_after? (s := .start) hquit with ⟨s, hs⟩
  have hassigned : (as.map (Session.setWord ++ ·)).filterMap assignment? =
      (as.map Session.setArgument).filterMap Assignment.read? := by
    rw [List.filterMap_map, List.filterMap_map]
    refine List.filterMap_congr fun a ha => ?_
    rw [Function.comp_apply, Function.comp_apply]
    exact Session.assignment?_setWord (has a ha).2 (hne a ha)
  have hvars := (Session.follows_of_after? Session.start_follows hs).vars
  rw [List.nil_append, hassigned] at hvars
  refine ⟨⟨s, hs, hvars, fun hword => ?_, Session.answer?_of_template htemplate⟩, fun bs hbs => ?_⟩
  · -- Nothing is removed from any of the assignments.
    have hself : as.map Session.setArgument = as := by
      calc as.map Session.setArgument = as.map id := List.map_congr_left fun a ha =>
            Session.setArgument_eq_self (has a ha).2 (hword a ha)
        _ = as := List.map_id as
    rwa [hself] at hvars
  · exact ⟨_, RenderRequest.read?_set hbs .empty, rfl⟩

/-- Keys with a blank in them, and values with an equals sign or the word of the command. -/
theorem set_lines_vars_blank :
    (∀ a ∈ ["x y=:set z", "n=a=b"], '=' ∈ a.toList ∧ Text.trim a = a) ∧ ¬ IsCommand ":set" ∧
      ∃ s r, Session.start.after? [":set x y=:set z", ":set n=a=b"] = some s ∧
        RenderRequest.read? ["--set=x y=:set z", "--set=n=a=b"] .empty = some r ∧ s.vars = r.vars ∧
        r.vars.get? "x y" = some (.text ":set z") ∧ r.vars.get? "n" = some (.text "a=b") := by
  have has : ∀ a ∈ ["x y=:set z", "n=a=b"], '=' ∈ a.toList ∧ Text.trim a = a := by decide +kernel
  have hword : ∀ a ∈ ["x y=:set z", "n=a=b"], Text.hasFront Session.setWord a = false := by
    decide +kernel
  have htemplate : ¬ IsCommand ":set" := by decide +kernel
  rcases set_lines_vars _ _ has htemplate with ⟨⟨s, hs, _, hself, _⟩, harguments⟩
  rcases harguments _ fun a ha => (has a ha).1 with ⟨r, hread, hr⟩
  refine ⟨has, htemplate, s, r, hs, hread, (hself hword).trans hr.symm, ?_⟩
  rw [hr]
  decide +kernel

/-- An assignment to a key that starts with the word of the command. The line sets another
    key than the argument, and the template has another output. -/
theorem set_lines_vars_word :
    '=' ∈ ":set x=1".toList ∧ Text.trim ":set x=1" = ":set x=1" ∧ ¬ IsCommand "[% x %]" ∧
      ∃ s r, Session.start.after? [":set :set x=1"] = some s ∧
        RenderRequest.read? ["--set=:set x=1"] .empty = some r ∧
        r.vars = .ofAssignments ([":set x=1"].filterMap Assignment.read?) ∧ s.vars ≠ r.vars ∧
        s.answer? "[% x %]" = some (⟨"1\n", ""⟩, s) ∧
        render "[% x %]" r.vars = .ok "" := by
  have htemplate : ¬ IsCommand "[% x %]" := by decide +kernel
  have hread : readTemplate "[% x %]" = .ok (Template.node [.print (.lookup "x")]) :=
    readTemplate_eq_ok_iff.mpr
      ⟨[.tagOpen, .identifier "x", .tagClose], by decide +kernel, rfl⟩
  have hline : render "[% x %]" (.ofAssignments [⟨"x", "1"⟩]) = .ok "1" := by
    rw [render_eq_output hread]
    decide +kernel
  have hargument : render "[% x %]" (.ofAssignments [⟨":set x", "1"⟩]) = .ok "" := by
    rw [render_eq_output hread]
    decide +kernel
  refine ⟨by decide, by decide +kernel, htemplate,
    ⟨.nothing, .ofAssignments [⟨"x", "1"⟩]⟩, ⟨none, [], [⟨":set x", "1"⟩], false, false⟩,
    by decide +kernel, by decide +kernel, by decide +kernel, by decide +kernel, ?_, hargument⟩
  rw [Session.answer?_of_template htemplate, hline, Stages.report_nothing]
  decide +kernel

end Stencil
