import Stencil.Code.Listing
import Stencil.Proofs.Quoting
import Stencil.Proofs.Tiling.Lexemes

/-!
# Reading the Lines of a Listing

The lines of a listing can be read back into instructions.

A listing has names where the program has keys, so what is read back are instructions with
names. A line is its number, a blank, the instruction's word, and its operands with a blank
in front of each. Words, numbers and the names of templates have no blank, so a line is cut
at the first blank and again at the next. A quoted text may have blanks and is the rest of
its line. No line has a line end before its own, since a text's are escaped, so the listing
is cut at line ends.

## Main definitions

* `NamedInstruction`: An instruction with names in place of keys.
* `Instruction.named`: The instruction with the names of a table.
* `NamedInstruction.shown`: An instruction as a line of a listing has it.
* `NamedInstruction.read?`: The instruction that is shown so.
* `readLines?`: The instructions that a listing shows.
* `Program.body`: A line of a program without its end.

## Theorems

* `Instruction.listed_eq`: A listing shows the named instructions.
* `NamedInstruction.read?_shown`: Each is read back, if its name is a word.
* `Program.readLines?_listing`: The listing of a program is read back.
-/

namespace Stencil

/-- An instruction with names in place of keys. -/
inductive NamedInstruction
  | stop
  | pushInteger (n : Int64)
  | pushNil
  | operate (op : Operator)
  | printText (s : String)
  | printTop
  | lookup (name : String)
  | makeArray (count : Nat)
  | jumpIfFalse (target : Nat)
  | beginFor (name : String) (target : Nat)
  | checkFor (target : Nat)
deriving Repr, DecidableEq

/-- The instruction with the names of a table. -/
def Instruction.named (names : Names) : Instruction → NamedInstruction
  | .stop => .stop
  | .pushInteger n => .pushInteger n
  | .pushNil => .pushNil
  | .operate op => .operate op
  | .printText s => .printText s
  | .printTop => .printTop
  | .lookup key => .lookup (names.listed key)
  | .makeArray count => .makeArray count
  | .jumpIfFalse target => .jumpIfFalse target
  | .beginFor key target => .beginFor (names.listed key) target
  | .checkFor target => .checkFor target

/-- The characters up to the first blank, and those behind it. -/
def cutWord (cs : List Char) : List Char × List Char :=
  (cs.takeWhile (· ≠ ' '), (cs.dropWhile (· ≠ ' ')).tail)

namespace NamedInstruction

/-- An instruction with its operands. -/
def shown : NamedInstruction → String
  | stop => "STOP"
  | pushInteger n => "PUSH_INT " ++ showInteger n
  | pushNil => "PUSH_NIL"
  | operate op => op.mnemonic
  | printText s => "PRINT_RAW " ++ Text.quote s
  | printTop => "PRINT_TOP"
  | lookup name => "LOOKUP " ++ name
  | makeArray count => "MAKE_ARRAY " ++ Text.ofNat count
  | jumpIfFalse target => "JUMP_IF_FALSE " ++ Text.ofNat target
  | beginFor name target => "BEGIN_FOR " ++ name ++ " " ++ Text.ofNat target
  | checkFor target => "CHECK_FOR " ++ Text.ofNat target

/-- The instruction with this word and operands. -/
def build? (word : String) (operands : List Char) : Option NamedInstruction :=
  match word with
  | "STOP" => some stop
  | "PUSH_INT" => (readInteger? (String.ofList operands)).map pushInteger
  | "PUSH_NIL" => some pushNil
  | "ADD" => some (operate .add)
  | "SUB" => some (operate .sub)
  | "MUL" => some (operate .mul)
  | "DIV" => some (operate .div)
  | "PRINT_RAW" => (Text.unquote? operands).map printText
  | "PRINT_TOP" => some printTop
  | "LOOKUP" => some (lookup (String.ofList operands))
  | "MAKE_ARRAY" => (readDigits? operands).map makeArray
  | "JUMP_IF_FALSE" => (readDigits? operands).map jumpIfFalse
  | "BEGIN_FOR" =>
    (readDigits? (cutWord operands).2).map (beginFor (String.ofList (cutWord operands).1))
  | "CHECK_FOR" => (readDigits? operands).map checkFor
  | _ => none

/-- The instruction that is shown so. -/
def read? (line : List Char) : Option NamedInstruction :=
  build? (String.ofList (cutWord line).1) (cutWord line).2

/-- The name that an instruction refers to is a word. -/
def HasWord : NamedInstruction → Prop
  | lookup name => IsWord name
  | beginFor name _ => IsWord name
  | _ => True

end NamedInstruction

/-- The instructions that a listing shows, one on each line behind its number. -/
def readLines? (listing : String) : Option (List NamedInstruction) :=
  (listing.toList.splitOn '\n').dropLast.mapM fun line => NamedInstruction.read? (cutWord line).2

section Cutting

variable {word rest : List Char} {s : String}

theorem cutWord_append (h : ' ' ∉ word) : cutWord (word ++ ' ' :: rest) = (word, rest) := by
  have hword : ∀ c ∈ word, decide (c ≠ ' ') = true := by
    intro c hc
    exact decide_eq_true fun hblank => h (hblank ▸ hc)
  have hrest : ∀ c ∈ (' ' :: rest).head?, ¬ decide (c ≠ ' ') = true := by
    intro c hc
    cases hc
    decide
  rw [cutWord, takeWhile_append_eq hword hrest, dropWhile_append_eq hword hrest, List.tail_cons]

/-- A word is cut from what stands behind a blank. -/
theorem cutWord_spaced (h : ' ' ∉ s.toList) (t : String) :
    cutWord (s ++ " " ++ t).toList = (s.toList, t.toList) := by
  have htoList : (s ++ " " ++ t).toList = s.toList ++ ' ' :: t.toList := by
    rw [String.toList_append, String.toList_append, List.append_assoc]
    rfl
  rw [htoList, cutWord_append h]

/-- A small letter or a digit is no blank and no line end. -/
theorem not_mem_of_isWord (h : IsWord s) : ' ' ∉ s.toList ∧ '\n' ∉ s.toList := by
  rcases h with ⟨c, cs, hs, hc, hcs⟩
  have hall : ∀ d ∈ s.toList, d.isLower ∨ d.isDigit := by
    intro d hd
    rw [hs, List.mem_cons] at hd
    rcases hd with rfl | hd
    · exact .inl hc
    · exact hcs d hd
  exact ⟨fun hmem => absurd (hall ' ' hmem) (by decide),
    fun hmem => absurd (hall '\n' hmem) (by decide)⟩

end Cutting

/-- A key that has a name is listed with it. -/
theorem Names.listed_of_name? {names : Names} {key : Nat} {name : String}
    (h : names.name? key = some name) : names.listed key = name := by
  rw [Names.listed, h, Option.getD_some]

theorem Instruction.listed_eq (names : Names) (i : Instruction) :
    i.listed names = (i.named names).shown := by
  cases i <;> rfl

namespace NamedInstruction

/-- The word of an instruction is cut from its operands. -/
theorem read?_append {word : String} (h : ' ' ∉ word.toList) (operands : String) :
    read? (word ++ " " ++ operands).toList = build? word operands.toList := by
  rw [read?, cutWord_spaced h, String.ofList_toList]

/-- An instruction is read back whose operand is a number. -/
theorem read?_number {word : String} {make : Nat → NamedInstruction} (h : ' ' ∉ word.toList)
    (hmake : ∀ operands, build? word operands = (readDigits? operands).map make) (n : Nat) :
    read? (word ++ " " ++ Text.ofNat n).toList = some (make n) := by
  rw [read?_append h, hmake, readDigits?_ofNat, Option.map_some]

/-- An instruction is read back from what it is shown as, if its name is a word. -/
theorem read?_shown {i : NamedInstruction} (h : i.HasWord) : read? i.shown.toList = some i := by
  -- The word decides which instruction it is, and what is left is to read the operands.
  cases i with
  | stop => rfl
  | pushInteger n =>
      have hread : read? (pushInteger n).shown.toList =
          (readInteger? (String.ofList (showInteger n).toList)).map pushInteger :=
        @read?_append "PUSH_INT" (by decide) (showInteger n)
      rw [hread, String.ofList_toList, readInteger?_showInteger, Option.map_some]
  | pushNil => rfl
  | operate op => cases op <;> rfl
  | printText s =>
      have hread : read? (printText s).shown.toList =
          (Text.unquote? (Text.quote s).toList).map printText :=
        @read?_append "PRINT_RAW" (by decide) (Text.quote s)
      rw [hread, Text.unquote?_quote, Option.map_some]
  | printTop => rfl
  | lookup name =>
      have hread : read? (lookup name).shown.toList = some (lookup (String.ofList name.toList)) :=
        @read?_append "LOOKUP" (by decide) name
      rw [hread, String.ofList_toList]
  | makeArray count => exact @read?_number "MAKE_ARRAY" makeArray (by decide) (fun _ => rfl) count
  | jumpIfFalse target =>
      exact @read?_number "JUMP_IF_FALSE" jumpIfFalse (by decide) (fun _ => rfl) target
  | beginFor name target =>
      -- The name is cut from the target as the word is from the operands.
      have hshown : (beginFor name target).shown =
          "BEGIN_FOR" ++ " " ++ (name ++ " " ++ Text.ofNat target) := by
        rw [← String.append_assoc, ← String.append_assoc]
        rfl
      have hbuild : ∀ operands, build? "BEGIN_FOR" operands =
          (readDigits? (cutWord operands).2).map (beginFor (String.ofList (cutWord operands).1)) :=
        fun _ => rfl
      rw [hshown, read?_append (by decide), hbuild, cutWord_spaced (not_mem_of_isWord h).1,
        readDigits?_ofNat, Option.map_some, String.ofList_toList]
  | checkFor target => exact @read?_number "CHECK_FOR" checkFor (by decide) (fun _ => rfl) target

/-- An instruction is shown on one line, if its name is a word. -/
theorem not_mem_shown {i : NamedInstruction} (h : i.HasWord) : '\n' ∉ i.shown.toList := by
  cases i with
  | operate op => cases op <;> decide
  | stop | pushNil | printTop => decide
  | pushInteger n => exact Text.not_mem_append (by decide) (Text.not_mem_showInteger n)
  | printText s => exact Text.not_mem_append (by decide) (Text.not_mem_quote s)
  | lookup name => exact Text.not_mem_append (by decide) (not_mem_of_isWord h).2
  | makeArray n | jumpIfFalse n | checkFor n =>
      exact Text.not_mem_append (by decide) (Text.not_mem_ofNat n)
  | beginFor name target =>
      have hword : '\n' ∉ "BEGIN_FOR ".toList := by decide
      have hname := Text.not_mem_append hword (not_mem_of_isWord h).2
      exact Text.not_mem_append (Text.not_mem_append hname (by decide)) (Text.not_mem_ofNat target)

end NamedInstruction

/-- A number that is filled up with zeros has digits alone. -/
theorem isDigit_of_mem_padded {width n : Nat} {c : Char} (h : c ∈ (Text.padded width n).toList) :
    c.isDigit := by
  rw [Text.padded, String.toList_ofList, List.leftpad, List.mem_append] at h
  rcases h with hzero | hdigit
  · rw [List.eq_of_mem_replicate hzero]
    decide
  · exact (Text.isNumeral_decimal n).2 c hdigit

/-- A text of lines is cut into them at the line ends. -/
theorem splitOn_join {bodies : List String} (h : ∀ body ∈ bodies, '\n' ∉ body.toList) :
    (String.join (bodies.map (· ++ "\n"))).toList.splitOn '\n' =
      bodies.map String.toList ++ [[]] := by
  induction bodies with
  | nil => rfl
  | cons body bodies ih =>
      -- The first line end is the one behind the first line.
      have htoList : (String.join ((body :: bodies).map (· ++ "\n"))).toList =
          body.toList ++ '\n' :: (String.join (bodies.map (· ++ "\n"))).toList := by
        rw [List.map_cons, String.join_cons, String.toList_append, String.toList_append,
          List.append_assoc]
        rfl
      rw [List.forall_mem_cons] at h
      rw [htoList, List.splitOn_append_cons_self_of_not_mem h.1, ih h.2, List.map_cons,
        List.cons_append]

/-- Where each item is read into what belongs to it, so is a list of them. -/
theorem mapM_map_eq_some {α β γ : Type} {f : β → Option γ} {g : α → β} {h : α → γ} {items : List α}
    (hread : ∀ x ∈ items, f (g x) = some (h x)) : (items.map g).mapM f = some (items.map h) := by
  induction items with
  | nil => rfl
  | cons x items ih =>
      rw [List.forall_mem_cons] at hread
      rw [List.map_cons, List.mapM_cons, hread.1, ih hread.2]
      rfl

namespace Program

variable {p : Program} {entry : Instruction × Nat}

/-- The line of an instruction with its number, without its end. -/
def body (p : Program) (entry : Instruction × Nat) : String :=
  Text.padded 4 entry.2 ++ " " ++ (entry.1.named p.names).shown

theorem listing_eq (p : Program) :
    p.listing = String.join ((p.code.toList.zipIdx.map p.body).map (· ++ "\n")) := by
  have hline : ∀ entry : Instruction × Nat, p.line entry.2 entry.1 = p.body entry ++ "\n" := by
    intro entry
    rw [line, Instruction.listed_eq, body]
  have hlines : p.lines = p.code.toList.zipIdx.map (p.body · ++ "\n") :=
    List.map_congr_left fun entry _ => hline entry
  rw [List.map_map]
  exact congrArg String.join hlines

/-- The instruction of a line is behind its number. -/
theorem read?_body (h : (entry.1.named p.names).HasWord) :
    NamedInstruction.read? (cutWord (p.body entry).toList).2 = some (entry.1.named p.names) := by
  have hnumber : ' ' ∉ (Text.padded 4 entry.2).toList :=
    fun hmem => absurd (isDigit_of_mem_padded hmem) (by decide)
  rw [body, cutWord_spaced hnumber, NamedInstruction.read?_shown h]

theorem not_mem_body (h : (entry.1.named p.names).HasWord) :
    '\n' ∉ (p.body entry).toList := by
  have hnumber : '\n' ∉ (Text.padded 4 entry.2).toList :=
    fun hmem => absurd (isDigit_of_mem_padded hmem) (by decide)
  exact Text.not_mem_append (Text.not_mem_append hnumber (by decide))
    (NamedInstruction.not_mem_shown h)

/-- The listing of a program is read back into its instructions, with their names, if these
    are words. -/
theorem readLines?_listing (h : ∀ i ∈ p.code.toList, (i.named p.names).HasWord) :
    readLines? p.listing = some (p.code.toList.map (·.named p.names)) := by
  have hword : ∀ entry ∈ p.code.toList.zipIdx, (entry.1.named p.names).HasWord :=
    fun entry hentry => h entry.1 (List.fst_mem_of_mem_zipIdx hentry)
  have hbodies : ∀ body ∈ p.code.toList.zipIdx.map p.body, '\n' ∉ body.toList :=
    List.forall_mem_map.mpr fun entry hentry => not_mem_body (hword entry hentry)
  have hread : ((p.code.toList.zipIdx.map p.body).map String.toList).mapM
      (fun line => NamedInstruction.read? (cutWord line).2) =
        some (p.code.toList.zipIdx.map fun entry => entry.1.named p.names) := by
    rw [List.map_map]
    exact mapM_map_eq_some fun entry hentry => read?_body (hword entry hentry)
  have hcode : (p.code.toList.zipIdx.map fun entry => entry.1.named p.names) =
      p.code.toList.map (·.named p.names) := by
    rw [← List.zipIdx_map_fst 0 p.code.toList, List.map_map, List.zipIdx_map_fst]
    rfl
  rw [readLines?, listing_eq, splitOn_join hbodies, List.dropLast_concat, hread, hcode]

end Program

end Stencil
