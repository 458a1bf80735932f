import Stencil.Proofs.Rendering.Stages
import Stencil.Files

/-!
# Searching Directories

Which directory of a search path decides, and what changes to the files can do to it.

A search reads the same name in one directory after another. Each read finds nothing, or it
comes to a text or to an error, and the first read of the second kind is the result. So the
directories in front of the one that decides have nothing of the name, and those behind it
are never read: neither a template there nor an error can change the result. The induction
along the directories is done once, in `firstFound_append` and `exists_decides`, and the
rest is read off a list of directories that is cut at the one that decides.

A search keeps nothing from one call to the next. Between the calls files come and go, and
each call has the answer of the files as they are then, which is told by `answers_append`.

## Main definitions

* `SearchPath.Decides`: A directory is the first in which a read does not find nothing.
* `FileEvent`: A change of the files, or a call that renders a named template.
* `FileEvent.apply`: The files after an event.
* `SearchPath.answers`: The results of the calls among some events.

## Theorems

* `SearchPath.firstFound_append`: Paths one behind the other.
* `SearchPath.load_of_decides`, `SearchPath.load_eq_none_iff`: What a search comes to.
* `SearchPath.exists_decides`: Some directory decides where a search finds something.
* `SearchPath.render_eq`: What rendering makes of the result of a search.
* `SearchPath.answers_append`: Events in two parts.
* `search_decided`: What a search comes to, at any time and after any changes.
-/

namespace Stencil

/-- Something that happens to the files, or a call that makes use of them. -/
inductive FileEvent
  /-- A file is written, or a directory is made, with what is missing on the way to it. -/
  | put (path : String) (new : Entry)
  | remove (path : String)
  /-- A named template is rendered. -/
  | render (name : String) (vars : Vars)

/-- The files after an event. A call leaves them as they are. -/
def FileEvent.apply (files : Entry) : FileEvent → Entry
  | .put path new => Entry.put new (Entry.parts path) files
  | .remove path => Entry.remove (Entry.parts path) files
  | .render _ _ => files

namespace SearchPath

/-- In the directories in front there is nothing of the name, and reading the name in the
    directory comes to something, be it a text or an error. -/
structure Decides (read : String → ReadResult) (name : String) (front : List String)
    (dir : String) : Prop where
  missing : ∀ d ∈ front, read (joinPath d name) = .ok none
  present : read (joinPath dir name) ≠ .ok none

/-- The results of the calls among some events, each call with the files of its time. -/
def answers (p : SearchPath) : Entry → List FileEvent → List (Except EngineError String)
  | _, [] => []
  | files, .put path new :: events => p.answers ((FileEvent.put path new).apply files) events
  | files, .remove path :: events => p.answers ((FileEvent.remove path).apply files) events
  | files, .render name vars :: events =>
    (p.source files.read).render name vars :: p.answers files events

variable {read read' : String → ReadResult} {name dir : String}
variable {dirs front back paths : List String}

/-- Where a read comes to something, the paths behind it are not read. -/
theorem firstFound_cons (h : read dir ≠ .ok none) : firstFound read (dir :: paths) = read dir := by
  rw [firstFound]
  split
  · rename_i hnone
    exact absurd hnone h
  · rfl

/-- The paths behind others are read where nothing is found at the others. -/
theorem firstFound_append (paths others : List String) : firstFound read (paths ++ others) =
    if firstFound read paths = .ok none then firstFound read others else firstFound read paths := by
  induction paths with
  | nil => rfl
  | cons path paths ih =>
      by_cases hpath : read path = .ok none
      · rw [List.cons_append, firstFound, firstFound, hpath]
        exact ih
      · rw [List.cons_append, firstFound_cons hpath, firstFound_cons hpath, if_neg hpath]

theorem firstFound_eq_none_iff :
    firstFound read paths = .ok none ↔ ∀ path ∈ paths, read path = .ok none := by
  induction paths with
  | nil => exact ⟨fun _ => nofun, fun _ => rfl⟩
  | cons path paths ih =>
      rw [List.forall_mem_cons, ← ih]
      by_cases hpath : read path = .ok none
      · rw [firstFound, hpath]
        exact (and_iff_right rfl).symm
      · rw [firstFound_cons hpath]
        exact iff_of_false hpath fun h => hpath h.1

/-- A search of directories behind others goes on where the others have nothing. -/
theorem load_append (dirs others : List String) : load ⟨dirs ++ others⟩ read name =
    if load ⟨dirs⟩ read name = .ok none then load ⟨others⟩ read name
    else load ⟨dirs⟩ read name := by
  rw [load, List.map_append]
  exact firstFound_append _ _

/-- A search finds nothing where no directory has anything of the name. -/
theorem load_eq_none_iff (p : SearchPath) : p.load read name = .ok none ↔
    ∀ d ∈ p.dirs, read (joinPath d name) = .ok none := by
  rw [load, firstFound_eq_none_iff, List.forall_mem_map]

/-- The directory that decides has the result. -/
theorem load_of_decides (h : Decides read name front dir) :
    load ⟨front ++ dir :: back⟩ read name = read (joinPath dir name) := by
  have hfront : load ⟨front⟩ read name = .ok none := (load_eq_none_iff _).mpr h.missing
  rw [load_append, if_pos hfront, load, List.map_cons, firstFound_cons h.present]

/-- Where a search finds something, some directory decides. -/
theorem exists_decides (h : ¬ ∀ d ∈ dirs, read (joinPath d name) = .ok none) :
    ∃ front dir back, dirs = front ++ dir :: back ∧ Decides read name front dir := by
  induction dirs with
  | nil => exact absurd nofun h
  | cons d dirs ih =>
      by_cases hd : read (joinPath d name) = .ok none
      · -- The first directory has nothing, so it stands in front.
        have hrest : ¬ ∀ e ∈ dirs, read (joinPath e name) = .ok none :=
          fun hall => h (List.forall_mem_cons.mpr ⟨hd, hall⟩)
        rcases ih hrest with ⟨front, dir, back, rfl, hdecides⟩
        refine ⟨d :: front, dir, back, rfl, ?_, hdecides.present⟩
        exact List.forall_mem_cons.mpr ⟨hd, hdecides.missing⟩
      · exact ⟨[], d, dirs, rfl, nofun, hd⟩

/-- A directory still decides where it and those in front of it are read as before. -/
theorem Decides.congr (h : Decides read name front dir)
    (hsame : ∀ d ∈ front ++ [dir], read' (joinPath d name) = read (joinPath d name)) :
    Decides read' name front dir := by
  refine ⟨fun d hd => ?_, ?_⟩
  · rw [hsame d (List.mem_append_left _ hd)]
    exact h.missing d hd
  · rw [hsame dir (List.mem_append_right _ List.mem_cons_self)]
    exact h.present

/-- What rendering a named template makes of the result of the search. -/
theorem render_eq (p : SearchPath) (vars : Vars) : (p.source read).render name vars =
    match p.load read name with
    | .error cause => .error (.unreadable name cause)
    | .ok none => .error (.notFound name ("(" ++ String.intercalate " " p.dirs ++ ")"))
    | .ok (some text) => (Stencil.render text vars).mapError .template := by
  have hload : (p.source read).load name = p.load read name := rfl
  unfold TemplateSource.render TemplateSource.fetch
  rw [hload]
  cases p.load read name with
  | error cause => rfl
  | ok found =>
      cases found with
      | none => rfl
      | some text => exact TemplateSource.renderText_eq vars text

/-- The calls among events in two parts, the second of which starts with the files that the
    first one leaves. -/
theorem answers_append (p : SearchPath) (files : Entry) (events later : List FileEvent) :
    p.answers files (events ++ later) =
      p.answers files events ++ p.answers (events.foldl FileEvent.apply files) later := by
  induction events generalizing files with
  | nil => rfl
  | cons e events ih =>
      cases e with
      | put path new => exact ih _
      | remove path => exact ih _
      | render name vars => exact congrArg (_ :: ·) (ih files)

end SearchPath

open SearchPath

/-- What a search for a name comes to, whatever is read of each path. The first directory decides
    in which a read does not find nothing, with its text or its error, and it is all the same
    what becomes of the files if it and the directories in front of it are read as before.
    Nothing is found where all directories have nothing of the name. Directories behind others
    are searched where the others have nothing. Rendering gives the error of the read, or says
    where nothing was found, or renders the text that was found. Among any events a call has
    the result of the files that the events in front of it have left. -/
theorem search_decided (p : SearchPath) (name : String) (vars : Vars) :
    (∀ read : String → ReadResult,
      (∀ front dir back, p.dirs = front ++ dir :: back → Decides read name front dir →
        p.load read name = read (joinPath dir name) ∧
        ∀ read' : String → ReadResult,
          (∀ d ∈ front ++ [dir], read' (joinPath d name) = read (joinPath d name)) →
          p.load read' name = p.load read name) ∧
      (p.load read name = .ok none ↔ ∀ d ∈ p.dirs, read (joinPath d name) = .ok none) ∧
      (p.load read name ≠ .ok none ↔
        ∃ front dir back, p.dirs = front ++ dir :: back ∧ Decides read name front dir) ∧
      (∀ dirs others, p.dirs = dirs ++ others →
        p.load read name = if load ⟨dirs⟩ read name = .ok none
          then load ⟨others⟩ read name else load ⟨dirs⟩ read name) ∧
      (p.source read).render name vars =
        match p.load read name with
        | .error cause => .error (.unreadable name cause)
        | .ok none => .error (.notFound name ("(" ++ String.intercalate " " p.dirs ++ ")"))
        | .ok (some text) => (render text vars).mapError .template) ∧
    ∀ (files : Entry) events later, p.answers files (events ++ .render name vars :: later) =
      p.answers files events ++
        (p.source (events.foldl FileEvent.apply files).read).render name vars ::
          p.answers (events.foldl FileEvent.apply files) later := by
  rcases p with ⟨dirs⟩
  refine ⟨fun read => ⟨?_, load_eq_none_iff _, ?_, ?_, render_eq _ vars⟩,
    fun files events later => ?_⟩
  · rintro front dir back rfl hdecides
    refine ⟨load_of_decides hdecides, fun read' hsame => ?_⟩
    rw [load_of_decides (hdecides.congr hsame), load_of_decides hdecides]
    exact hsame dir (List.mem_append_right _ List.mem_cons_self)
  · rw [ne_eq, load_eq_none_iff]
    constructor
    · exact exists_decides
    · rintro ⟨front, dir, back, rfl, hdecides⟩ hall
      exact hdecides.present (hall dir (List.mem_append_right _ List.mem_cons_self))
  · rintro dirs others rfl
    exact load_append dirs others
  · rw [answers_append]
    rfl

/-- A file that is no text ends the search, although the template is in a directory behind it.
    What is read of the directories themselves has no part in this. -/
theorem search_decided_noText :
    let files := Entry.put (.file ⟨#[104, 105]⟩) ["c", "t"]
      (Entry.put (.file ⟨#[255]⟩) ["b", "t"] (Entry.put .empty ["a"] .empty))
    Decides files.read "t" ["a"] "b" ∧ files.read "c/t" = .ok (some "hi") ∧
      (∀ dir ∈ ["a", "b"], files.read dir = .error .isADirectory) ∧
      SearchPath.load ⟨["a", "b", "c"]⟩ files.read "t" = .error .invalidData := by
  intro files
  have hdecides : Decides files.read "t" ["a"] "b" := by
    constructor
    · decide +kernel
    · decide +kernel
  have hdirs : ∀ dir ∈ ["a", "b"], files.read dir = .error .isADirectory := by decide +kernel
  rcases search_decided ⟨["a", "b", "c"]⟩ "t" .empty with ⟨hread, _⟩
  rcases hread files.read with ⟨hfirst, _⟩
  rcases hfirst ["a"] "b" ["c"] rfl hdecides with ⟨hload, _⟩
  refine ⟨hdecides, by decide +kernel, hdirs, ?_⟩
  rw [hload]
  decide +kernel

end Stencil
