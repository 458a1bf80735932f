import Stencil.Proofs.Listing.Trees
import Stencil.Proofs.Rendering

/-!
# Listings Identify Templates

The listing of a template's program can be read back into the template, so two templates
with the same listing are the same.

Reading a listing back takes two steps. Its lines are read into instructions with names, and
the instructions into statements. The first step relies on names without a blank or a line
end. The names of a tree that was read from a source are those of identifiers among its
tokens, by recursion on the derivation of the tokens, and an identifier of a source is a
word. The names in the code are those of the tree.

Nothing but the numbers of keys is lost between a tree and its listing, and they are not of
the tree.

## Main definitions

* `readListing?`: The tree of a listing.

## Theorems

* `identifier_of_sequence`: Names of a tree are identifiers among its tokens.
* `isWord_of_readTemplate`: The names of a source's tree are words.
* `readListing?_compile`: The listing of a tree is read back, if its names are words.
* `listing_identifies`: The same for a source, and that listings identify trees.
-/

namespace Stencil

/-- The tree of a listing. -/
def readListing? (listing : String) : Option Node :=
  ((readLines? listing).bind decompileProgram).map Template.node

section Names

open Grammar

theorem Node.mentionsAll_concat (ns : List Node) (n : Node) :
    Node.mentionsAll (ns ++ [n]) = Node.mentionsAll ns ++ n.mentions := by
  induction ns with
  | nil => exact List.append_nil _
  | cons m ns ih => rw [List.cons_append, mentionsAll, ih, mentionsAll, List.append_assoc]

theorem Node.mentionsReversed_concat (ns : List Node) (n : Node) :
    Node.mentionsReversed (ns ++ [n]) = n.mentions ++ Node.mentionsReversed ns := by
  induction ns with
  | nil => exact (List.append_nil _).symm
  | cons m ns ih =>
      rw [List.cons_append, mentionsReversed, ih, mentionsReversed, List.append_assoc]

variable {name : String}

mutual

theorem identifier_of_primary : {ts : List Token} → {n : Node} → Primary ts n →
    name ∈ n.mentions → .identifier name ∈ ts
  | _, _, .integer _, h => nomatch h
  | _, _, .nil, h => nomatch h
  | _, _, .lookup, h => by
      rw [List.mem_singleton.mp h]
      exact List.mem_cons_self
  | _, _, .emptyArray, h => nomatch h
  | _, _, .array helements, h =>
      List.mem_cons_of_mem _ (List.mem_append_left _ (identifier_of_elements helements h))
  | _, _, .arrayComma helements, h =>
      List.mem_cons_of_mem _ (List.mem_append_left _ (identifier_of_elements helements h))

theorem identifier_of_elements : {ts : List Token} → {ns : List Node} → Elements ts ns →
    name ∈ Node.mentionsReversed ns → .identifier name ∈ ts
  | _, _, .one hn, h => identifier_of_primary hn h
  | _, _, .more helements hn, h => by
      rw [Node.mentionsReversed_concat, List.mem_append] at h
      rcases h with h | h
      · exact List.mem_append_right _ (List.mem_cons_of_mem _ (identifier_of_primary hn h))
      · exact List.mem_append_left _ (identifier_of_elements helements h)

end

theorem identifier_of_product {ts : List Token} {n : Node} (hn : Product ts n)
    (h : name ∈ n.mentions) : .identifier name ∈ ts := by
  induction hn with
  | one hn => exact identifier_of_primary hn h
  | more _ _ hrhs ih =>
      rw [Node.mentions, List.mem_append] at h
      rcases h with h | h
      · exact List.mem_append_right _ (List.mem_cons_of_mem _ (identifier_of_primary hrhs h))
      · exact List.mem_append_left _ (ih h)

theorem identifier_of_sum {ts : List Token} {n : Node} (hn : Grammar.Sum ts n)
    (h : name ∈ n.mentions) : .identifier name ∈ ts := by
  induction hn with
  | one hn => exact identifier_of_product hn h
  | more _ _ hrhs ih =>
      rw [Node.mentions, List.mem_append] at h
      rcases h with h | h
      · exact List.mem_append_right _ (List.mem_cons_of_mem _ (identifier_of_product hrhs h))
      · exact List.mem_append_left _ (ih h)

mutual

/-- A name that statements mention is that of an identifier among their tokens. -/
theorem identifier_of_sequence : {ts : List Token} → {ns : List Node} → Sequence ts ns →
    name ∈ Node.mentionsAll ns → .identifier name ∈ ts
  | _, _, .nil, h => nomatch h
  | _, _, .text hts, h => by
      rw [Node.mentionsAll_concat, Node.mentions, List.append_nil] at h
      exact List.mem_append_left _ (identifier_of_sequence hts h)
  | _, _, .tag hts hn, h => by
      rw [Node.mentionsAll_concat, List.mem_append] at h
      rcases h with h | h
      · exact List.mem_append_left _ (identifier_of_sequence hts h)
      · exact List.mem_append_right _ (identifier_of_tag hn h)

theorem identifier_of_tag : {ts : List Token} → {n : Node} → Tag ts n →
    name ∈ n.mentions → .identifier name ∈ ts
  | _, _, .print he, h =>
      List.mem_cons_of_mem _ (List.mem_append_left _ (identifier_of_sum he h))
  | _, _, .ifThen hcondition hbody, h => by
      rw [Node.mentions, List.mem_append] at h
      refine List.mem_cons_of_mem _ (List.mem_cons_of_mem _ ?_)
      rcases h with h | h
      · exact List.mem_append_left _ (identifier_of_sum hcondition h)
      · exact List.mem_append_right _ (List.mem_cons_of_mem _
          (List.mem_append_left _ (identifier_of_sequence hbody h)))
  | _, _, .forEach hiterable hbody, h => by
      rw [Node.mentions, List.mem_append, List.mem_cons] at h
      refine List.mem_cons_of_mem _ (List.mem_cons_of_mem _ ?_)
      rcases h with h | rfl | h
      · exact List.mem_cons_of_mem _ (List.mem_cons_of_mem _
          (List.mem_append_left _ (identifier_of_sum hiterable h)))
      · exact List.mem_cons_self
      · exact List.mem_cons_of_mem _ (List.mem_cons_of_mem _ (List.mem_append_right _
          (List.mem_cons_of_mem _ (List.mem_append_left _ (identifier_of_sequence hbody h)))))

end

/-- The names of a source's tree are words. -/
theorem isWord_of_readTemplate {source : String} {root : Node}
    (h : readTemplate source = .ok root) (hname : name ∈ root.mentions) : IsWord name := by
  rcases readTemplate_eq_ok_iff.mp h with ⟨tokens, hscan, hparse⟩
  rcases scan_eq_ok_iff.mp hscan with ⟨pieces, harranged, _, _, rfl⟩
  rcases template_of_readTree hparse with ⟨ns, hns, rfl⟩
  exact (wellFormed_of_arranged harranged (identifier_of_sequence hns hname)).1

/-- The names in the code of a tree are those of the tree. -/
theorem hasWord_of_mem {root : Node} {i : Instruction}
    (hwords : ∀ name ∈ root.mentions, IsWord name) (hi : i ∈ (compile root).code.toList) :
    (i.named (compile root).names).HasWord := by
  have hmentioned : ∀ {key name}, (compile root).names.mentioned? i = some name →
      (compile root).names.name? key = some name → IsWord ((compile root).names.listed key) := by
    intro key name hi' hkey
    rw [Names.listed_of_name? hkey]
    refine hwords name ?_
    rw [← compile_mentions]
    exact List.mem_filterMap.mpr ⟨i, hi, hi'⟩
  rcases List.mem_iff_getElem?.mp hi with ⟨k, hk⟩
  rw [Array.getElem?_toList] at hk
  have hresolves := compile_resolves root hk
  cases i with
  | lookup key =>
      rcases hresolves with ⟨name, hname, _⟩
      exact hmentioned hname hname
  | beginFor key target =>
      rcases hresolves with ⟨name, _, _, _, hname, _, _⟩
      exact hmentioned hname hname
  | _ => trivial

end Names

/-- The listing of a template's program is read back into its tree, if its names are words. -/
theorem readListing?_compile {t : Template} (h : ∀ name ∈ t.node.mentions, IsWord name) :
    readListing? (compile t.node).listing = some t.node := by
  have hlines := @Program.readLines?_listing (compile t.node) fun i hi => hasWord_of_mem h hi
  rw [readListing?, hlines, Option.bind_some, decompileProgram_compile, Option.map_some]

/-- The listing of the program of a source is read back into the source's tree. So sources
    have the same tree if their programs have the same listing. -/
theorem listing_identifies :
    (∀ source root, readTemplate source = .ok root →
      readListing? (compile root).listing = some root) ∧
    ∀ source source' root root', readTemplate source = .ok root →
      readTemplate source' = .ok root' →
      (compile root).listing = (compile root').listing → root = root' := by
  have hread : ∀ source root, readTemplate source = .ok root →
      readListing? (compile root).listing = some root := by
    intro source root h
    rcases exists_template_of_readTemplate h with ⟨t, rfl⟩
    exact readListing?_compile fun name hname => isWord_of_readTemplate h hname
  refine ⟨hread, fun source source' root root' h h' hsame => ?_⟩
  have hroot := hread source root h
  rw [hsame, hread source' root' h'] at hroot
  exact (Option.some.inj hroot).symm

/-- Two blocks that end at the same place, with a quote and a line end inside. -/
theorem listing_identifies_nested :
    let source := "[% if x %][% if [1, y] %]\x22\n[% end %][% end %]"
    let root := Node.sequence [.ifThen (.lookup "x") (.sequence
      [.ifThen (.array [.integer 1, .lookup "y"]) (.sequence [.text "\x22\n"])])]
    readTemplate source = .ok root ∧
      (compile root).lines = ["0000 LOOKUP x\n", "0001 JUMP_IF_FALSE 7\n", "0002 LOOKUP y\n",
        "0003 PUSH_INT 1\n", "0004 MAKE_ARRAY 2\n", "0005 JUMP_IF_FALSE 7\n",
        "0006 PRINT_RAW \x22\\\x22\\n\x22\n", "0007 STOP\n"] ∧
      readListing? (compile root).listing = some root := by
  intro source root
  have hread : readTemplate source = .ok root :=
    readTemplate_eq_ok_iff.mpr ⟨[.tagOpen, .keyword .ifWord, .identifier "x", .tagClose,
      .tagOpen, .keyword .ifWord, .bracketOpen, .integer "1", .comma, .identifier "y",
      .bracketClose, .tagClose, .text "\x22\n", .tagOpen, .keyword .endWord, .tagClose,
      .tagOpen, .keyword .endWord, .tagClose], by decide +kernel, rfl⟩
  exact ⟨hread, by decide +kernel, listing_identifies.1 source root hread⟩

end Stencil
