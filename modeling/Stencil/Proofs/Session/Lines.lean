import Mathlib.Data.List.TakeWhile
import Stencil.Cli.Session

/-!
# What a Line Is

What a line is to a session depends on the line alone.

A line is told by its text without the blanks around it: three words are commands, and so is
every text that starts with the set command. What such a text sets is what is left without
the words of the command and without the blanks around the rest. Neither of the two takes
an equals sign away, so the line is an assignment where there is one anywhere in it.

`Session.Reads` has one case for each kind of line, with what the session is afterwards.
What is shown of sessions is shown by these cases.

## Main definitions

* `IsCommand`: A line is a command.
* `assignment?`: The assignment that a line is.
* `Session.Reads`: What a line is, and the session after it, case by case.

## Theorems

* `Text.mem_trim`: A character that is no blank is in the text without the blanks around it.
* `Assignment.read?_eq_some_iff`: The key ends at the first equals sign.
* `assignment?_isSome`: Which lines are assignments.
* `Session.reads_of_read`: Every line is read by one of the cases.
* `Session.read_eq_template_iff`: A line is a template where it is no command.
-/

namespace Stencil

namespace Text

variable {c : Char} {cs : List Char}

theorem mem_trimStart (hc : isBlank c = false) : c ∈ trimStart cs ↔ c ∈ cs := by
  have hsplit : cs.takeWhile isBlank ++ trimStart cs = cs := List.takeWhile_append_dropWhile
  constructor
  · intro h
    rw [← hsplit]
    exact List.mem_append_right _ h
  · intro h
    rw [← hsplit, List.mem_append] at h
    rcases h with hblank | hrest
    · have hc' : isBlank c = true := List.mem_takeWhile_imp hblank
      exact absurd hc' (Bool.eq_false_iff.mp hc)
    · exact hrest

/-- Only blanks are taken away around a text. -/
theorem mem_trim {s : String} (hc : isBlank c = false) : c ∈ (trim s).toList ↔ c ∈ s.toList := by
  rw [trim, String.toList_ofList, trimEnd, List.mem_reverse, mem_trimStart hc, List.mem_reverse,
    mem_trimStart hc]

/-- A text with a front is none of the texts without it. -/
theorem ne_of_hasFront {front s t : String} (hs : hasFront front s = true)
    (ht : hasFront front t = false) : s ≠ t := by
  intro heq
  rw [heq, ht] at hs
  exact nomatch hs

end Text

namespace Assignment

theorem split?_eq_some_iff {cs key raw : List Char} :
    split? cs = some (key, raw) ↔ '=' ∉ key ∧ cs = key ++ '=' :: raw := by
  induction cs generalizing key with
  | nil =>
      refine ⟨nofun, fun ⟨_, h⟩ => ?_⟩
      exact absurd h.symm (List.append_ne_nil_of_right_ne_nil _ (List.cons_ne_nil _ _))
  | cons c cs ih =>
      rw [split?]
      split
      · rename_i hc
        subst hc
        constructor
        · intro h
          cases h
          exact ⟨List.not_mem_nil, rfl⟩
        · rintro ⟨hkey, h⟩
          cases key with
          | nil =>
              cases h
              rfl
          | cons k key =>
              cases h
              exact absurd List.mem_cons_self hkey
      · rename_i hc
        rw [Option.map_eq_some_iff]
        constructor
        · rintro ⟨⟨key', raw'⟩, h, heq⟩
          cases heq
          rcases ih.mp h with ⟨hkey, rfl⟩
          exact ⟨List.not_mem_cons_of_ne_of_not_mem (Ne.symm hc) hkey, rfl⟩
        · rintro ⟨hkey, h⟩
          cases key with
          | nil =>
              cases h
              exact absurd rfl hc
          | cons k key =>
              cases h
              exact ⟨_, ih.mpr ⟨fun hmem => hkey (List.mem_cons_of_mem _ hmem), rfl⟩, rfl⟩

theorem toList_written (key raw : String) :
    (key ++ "=" ++ raw).toList = key.toList ++ '=' :: raw.toList := by
  rw [String.toList_append, String.toList_append, List.append_assoc]
  rfl

/-- The key of an assignment ends at the first equals sign. -/
theorem read?_eq_some_iff {s : String} {a : Assignment} :
    read? s = some a ↔ '=' ∉ a.key.toList ∧ s = a.key ++ "=" ++ a.raw := by
  rw [read?, Option.map_eq_some_iff]
  constructor
  · rintro ⟨⟨key, raw⟩, h, rfl⟩
    rcases split?_eq_some_iff.mp h with ⟨hkey, hs⟩
    refine ⟨by rwa [String.toList_ofList], String.toList_inj.mp ?_⟩
    rw [hs, toList_written, String.toList_ofList, String.toList_ofList]
  · rintro ⟨hkey, rfl⟩
    refine ⟨(a.key.toList, a.raw.toList), split?_eq_some_iff.mpr ⟨hkey, toList_written _ _⟩, ?_⟩
    simp only [String.ofList_toList]

/-- A text is an assignment where it has an equals sign. -/
theorem read?_isSome {s : String} : (read? s).isSome ↔ '=' ∈ s.toList := by
  rw [Option.isSome_iff_exists]
  constructor
  · rintro ⟨a, h⟩
    rw [(read?_eq_some_iff.mp h).2, toList_written]
    exact List.mem_append_right _ List.mem_cons_self
  · intro h
    rcases List.eq_append_cons_of_mem h with ⟨key, raw, hs, hkey⟩
    refine ⟨⟨String.ofList key, String.ofList raw⟩, read?_eq_some_iff.mpr ⟨?_, ?_⟩⟩
    · rwa [String.toList_ofList]
    · refine String.toList_inj.mp ?_
      rw [hs, toList_written, String.toList_ofList, String.toList_ofList]

end Assignment

/-- The line is a command: one of three words, or a text that starts with the set command. -/
def IsCommand (line : String) : Prop :=
  Text.trim line = ":tokens" ∨ Text.trim line = ":disasm" ∨ Text.trim line = ":quit" ∨
    Text.hasFront Session.setWord (Text.trim line) = true

instance : DecidablePred IsCommand :=
  fun _ => inferInstanceAs (Decidable (_ ∨ _ ∨ _ ∨ _))

theorem IsCommand.of_set {line : String}
    (h : Text.hasFront Session.setWord (Text.trim line) = true) :
    IsCommand line :=
  .inr (.inr (.inr h))

/-- The assignment that a line is: that of what a set command sets. -/
def assignment? (line : String) : Option Assignment :=
  if Text.hasFront Session.setWord (Text.trim line) then
    Assignment.read? (Session.setArgument (Text.trim line))
  else none

namespace Session

/-- Without the words of the set command, all that is in none of them is still there. -/
theorem mem_dropSetWords {c : Char} (hc : c ∉ setWord.toList) {cs : List Char} :
    c ∈ dropSetWords cs ↔ c ∈ cs := by
  induction cs using dropSetWords.induct with
  | case1 rest ih =>
      have hword : ':' :: 's' :: 'e' :: 't' :: ' ' :: rest = setWord.toList ++ rest := rfl
      rw [dropSetWords, ih, hword, List.mem_append]
      exact ⟨.inr, fun h => h.resolve_left hc⟩
  | case2 cs hcs => rw [dropSetWords.eq_2 cs hcs]

theorem mem_setArgument {word : String} : '=' ∈ (setArgument word).toList ↔ '=' ∈ word.toList := by
  have hblank : Text.isBlank '=' = false := by decide
  have hword : '=' ∉ setWord.toList := by decide
  rw [setArgument, Text.mem_trim hblank, String.toList_ofList, mem_dropSetWords hword]

end Session

/-- A line is an assignment where it starts with the set command and has an equals sign. -/
theorem assignment?_isSome {line : String} :
    (assignment? line).isSome ↔
      Text.hasFront Session.setWord (Text.trim line) = true ∧ '=' ∈ (Text.trim line).toList := by
  unfold assignment?
  split
  · rename_i hset
    rw [Assignment.read?_isSome, Session.mem_setArgument]
    exact ⟨fun h => ⟨hset, h⟩, And.right⟩
  · rename_i hset
    exact ⟨nofun, fun h => absurd h.1 hset⟩

/-- A line that is an assignment is a set command. -/
theorem hasFront_of_assignment? {line : String} {a : Assignment} (h : assignment? line = some a) :
    Text.hasFront Session.setWord (Text.trim line) = true :=
  (assignment?_isSome.mp (Option.isSome_iff_exists.mpr ⟨a, h⟩)).1

namespace Session

/-- What a line is, and the session after it, with what the line is known by. -/
inductive Reads (s : Session) (line : String) : Line → Session → Prop
  | tokens (h : Text.trim line = ":tokens") :
      Reads s line (.command ("token display " ++ onOff !s.stages.tokens))
        { s with stages := { s.stages with tokens := !s.stages.tokens } }
  | listing (h : Text.trim line = ":disasm") :
      Reads s line (.command ("disassembly " ++ onOff !s.stages.listing))
        { s with stages := { s.stages with listing := !s.stages.listing } }
  | quit (h : Text.trim line = ":quit") : Reads s line .quit s
  | assign {a : Assignment} (h : assignment? line = some a) :
      Reads s line (.command (a.key ++ " = " ++ a.raw)) { s with vars := s.vars.assign a }
  | refused (hset : Text.hasFront setWord (Text.trim line) = true) (h : assignment? line = none) :
      Reads s line (.command (Assignment.complaint (setArgument (Text.trim line)))) s
  | template (h : ¬ IsCommand line) : Reads s line .template s

variable {s s' : Session} {line : String} {what : Line}

/-- Every line is read by one of the cases. -/
theorem reads_of_read (h : s.read line = (what, s')) : s.Reads line what s' := by
  unfold read at h
  simp only at h
  split at h
  · cases h
    exact .tokens ‹_›
  split at h
  · cases h
    exact .listing ‹_›
  split at h
  · cases h
    exact .quit ‹_›
  split at h
  · rename_i hset
    have hline : assignment? line = Assignment.read? (setArgument (Text.trim line)) := if_pos hset
    unfold set at h
    split at h
    · rename_i a ha
      cases h
      exact .assign (hline.trans ha)
    · rename_i ha
      cases h
      exact .refused hset (hline.trans ha)
  · rename_i htokens hlisting hquit hset
    cases h
    refine .template ?_
    rintro (h | h | h | h)
    · exact htokens h
    · exact hlisting h
    · exact hquit h
    · exact hset h

/-- A line is a template where it is no command, and leaves the session as it is. -/
theorem read_eq_template_iff : s.read line = (.template, s') ↔ ¬ IsCommand line ∧ s' = s := by
  constructor
  · intro h
    cases reads_of_read h with
    | template hline => exact ⟨hline, rfl⟩
  · rintro ⟨hline, rfl⟩
    cases hread : s'.read line with
    | mk what t =>
        cases reads_of_read hread with
        | template _ => rfl
        | tokens h => exact absurd (.inl h) hline
        | listing h => exact absurd (.inr (.inl h)) hline
        | quit h => exact absurd (.inr (.inr (.inl h))) hline
        | assign h => exact absurd (.of_set (hasFront_of_assignment? h)) hline
        | refused h _ => exact absurd (.of_set h) hline

end Session

end Stencil
