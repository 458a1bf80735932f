import Mathlib.Data.List.Induction
import Mathlib.Data.List.Nodup
import Mathlib.Logic.Function.Basic
import Stencil.Machine
import Stencil.Proofs.Code.Patching
import Stencil.Proofs.Vars

/-!
# Keys Stand for Names

What the keys of a program have to do with the names of its tree.

The table of names is handed from node to node in the order in which code is written. This
is not the order in which the names are read: a right operand is written before the left
one, the last element of an array before the others, and the name of a loop between its
iterable and its body. `Node.mentions` is the list of names in this order, with
repetitions, and the table at the end holds what is left of it when repetitions go.

A key that is written into an instruction is right at that moment, and since the table is
only ever extended it is still right at the end. So reading the keys of the code back as
names gives the same list.

A run starts with one binding for each variable whose name has a key. No two of them have
the same key, and this is why it does not matter in which order they are bound.

## Main definitions

* `Node.mentions`: The names that a node mentions, in the order in which code is written.
* `Names.mentioned?`: The name that an instruction refers to.
* `Instruction.Resolves`: The key of an instruction is that of the name of its node.
* `Names.keyed`, `bindAll`: The bindings that variables make, one bound after another.
* `Keyed`: The keys of a program fit its tree.

## Theorems

* `mention_eq_foldl`, `toList_foldl_intern`: The names met are those that are mentioned,
  without repetitions.
* `layout_mentions`: Reading the keys of code back gives the names that are mentioned.
* `layout_resolves`: Each key is that of the name of the node it was written for.
* `exists_lookup`, `exists_beginFor`: Each variable and each loop has its instruction.
* `bindAll_keyed`: Binding the variables in any order makes the root scope.
* `compile_keyed`: The keys of the program of a tree fit the tree.
-/

namespace Stencil

mutual

/-- The names that a node mentions, in the order in which its code is written. -/
def Node.mentions : Node → List String
  | .sequence statements => Node.mentionsAll statements
  | .text _ => []
  | .print e => e.mentions
  | .integer _ => []
  | .nil => []
  | .lookup name => [name]
  | .array elements => Node.mentionsReversed elements
  | .binary _ lhs rhs => rhs.mentions ++ lhs.mentions
  | .ifThen condition body => condition.mentions ++ body.mentions
  | .forEach name iterable body => iterable.mentions ++ name :: body.mentions

/-- The names that nodes in order mention. -/
def Node.mentionsAll : List Node → List String
  | [] => []
  | n :: ns => n.mentions ++ Node.mentionsAll ns

/-- The names that nodes from the last to the first mention. -/
def Node.mentionsReversed : List Node → List String
  | [] => []
  | n :: ns => Node.mentionsReversed ns ++ n.mentions

end

/-- The name that a node has of its own: that of a variable or of a loop. -/
def Node.name? : Node → Option String
  | .lookup name => some name
  | .forEach name _ _ => some name
  | _ => none

/-- The key that an instruction refers to. -/
def Instruction.key? : Instruction → Option Nat
  | .lookup key => some key
  | .beginFor key _ => some key
  | _ => none

/-- The name that an instruction refers to. -/
def Names.mentioned? (table : Names) (i : Instruction) : Option String :=
  i.key?.bind table.name?

section Tables

mutual

/-- Writing the code of a node mentions one name after another. -/
theorem mention_eq_foldl : (n : Node) → ∀ names : Names,
    mention n names = n.mentions.foldl Names.intern names
  | .sequence statements, names => mentionAll_eq_foldl statements names
  | .text _, _ => rfl
  | .print e, names => mention_eq_foldl e names
  | .integer _, _ => rfl
  | .nil, _ => rfl
  | .lookup _, _ => rfl
  | .array elements, names => mentionReversed_eq_foldl elements names
  | .binary _ lhs rhs, names => by
      rw [mention, Node.mentions, List.foldl_append, mention_eq_foldl rhs, mention_eq_foldl lhs]
  | .ifThen condition body, names => by
      rw [mention, Node.mentions, List.foldl_append, mention_eq_foldl condition,
        mention_eq_foldl body]
  | .forEach name iterable body, names => by
      rw [mention, Node.mentions, List.foldl_append, List.foldl_cons, mention_eq_foldl iterable,
        mention_eq_foldl body]

theorem mentionAll_eq_foldl : (ns : List Node) → ∀ names : Names,
    mentionAll ns names = (Node.mentionsAll ns).foldl Names.intern names
  | [], _ => rfl
  | n :: ns, names => by
      rw [mentionAll, Node.mentionsAll, List.foldl_append, mention_eq_foldl n,
        mentionAll_eq_foldl ns]

theorem mentionReversed_eq_foldl : (ns : List Node) → ∀ names : Names,
    mentionReversed ns names = (Node.mentionsReversed ns).foldl Names.intern names
  | [], _ => rfl
  | n :: ns, names => by
      rw [mentionReversed, Node.mentionsReversed, List.foldl_append, mentionReversed_eq_foldl ns,
        mention_eq_foldl n]

end

variable {table names : Names} {name : String} {key : Nat}

theorem eraseDups_of_nodup {l : List String} (h : l.Nodup) : l.eraseDups = l := by
  induction l with
  | nil => rfl
  | cons a l ih =>
      rw [List.nodup_cons] at h
      have hfilter : l.filter (fun b => !b == a) = l := by
        refine List.filter_eq_self.mpr fun b hb => ?_
        rw [Bool.not_eq_true', beq_eq_false_iff_ne]
        rintro rfl
        exact h.1 hb
      rw [List.eraseDups_cons, hfilter, ih h.2]

/-- The names met are those of before and those that are mentioned, each where it comes
    first. -/
theorem toList_foldl_intern (l : List String) (names : Names) :
    (l.foldl Names.intern names).toList = (names.toList ++ l).eraseDups := by
  induction l generalizing names with
  | nil => rw [List.foldl_nil, List.append_nil, eraseDups_of_nodup names.nodup]
  | cons name l ih =>
      rw [List.foldl_cons, ih, Names.intern]
      by_cases hmem : name ∈ names.toList
      · -- A name that was met before is a repetition.
        rw [dif_pos hmem, List.eraseDups_append, List.eraseDups_append, List.cons_removeAll,
          if_neg (by rw [List.contains_iff_mem.mpr hmem]; exact Bool.noConfusion)]
      · rw [dif_neg hmem, List.append_assoc]
        rfl

theorem compile_names_eq (root : Node) :
    (compile root).names.toList = root.mentions.eraseDups := by
  rw [compile_names, mention_eq_foldl, toList_foldl_intern]
  rfl

/-- The key of a name has this name, and the other way round. -/
theorem key?_eq_some_iff : table.key? name = some key ↔ table.name? key = some name := by
  rw [Names.key?, Names.name?, List.idxOf?_eq_some_iff, List.getElem?_eq_some_iff]
  constructor
  · rintro ⟨hlt, hname, _⟩
    exact ⟨hlt, hname⟩
  · rintro ⟨hlt, hname⟩
    refine ⟨hlt, hname, fun j hj hsame => ?_⟩
    -- The same name would stand at two places.
    have := (List.Nodup.getElem_inj_iff table.nodup).mp (hsame.trans hname.symm)
    omega

theorem name?_isSome : (table.name? key).isSome ↔ key < table.size := by
  rw [Names.name?, Option.isSome_iff_ne_none, ne_eq, List.getElem?_eq_none_iff, Nat.not_le]
  rfl

theorem key?_isSome : (table.key? name).isSome ↔ name ∈ table.toList :=
  List.isSome_idxOf?

end Tables

section Code

variable {table : Names} {k key : Nat} {i : Instruction}

theorem mentioned?_of_key? (h : i.key? = none) : table.mentioned? i = none := by
  rw [Names.mentioned?, h, Option.bind_none]

mutual

/-- Reading the keys of the code of a node back as names gives those that it mentions. -/
theorem layout_mentions : (n : Node) → ∀ {names table : Names} (base : Nat),
    (mention n names).toList <+: table.toList →
    (layout n base names).filterMap table.mentioned? = n.mentions
  | .sequence statements, _, _, base, h => layoutAll_mentions statements base h
  | .text _, _, _, _, _ => rfl
  | .print e, names, table, base, h => by
      rw [layout, List.filterMap_append, layout_mentions e base h]
      exact List.append_nil _
  | .integer _, _, _, _, _ => rfl
  | .nil, _, _, _, _ => rfl
  | .lookup name, names, table, _, h => by
      have hname : table.mentioned? (.lookup (names.keyOf name)) = some name := name?_keyOf h
      rw [layout, List.filterMap_cons_some hname]
      rfl
  | .array elements, names, table, base, h => by
      rw [layout, List.filterMap_append, layoutReversed_mentions elements base h]
      exact List.append_nil _
  | .binary op lhs rhs, names, table, base, h => by
      have hrhs := (prefix_mention lhs (mention rhs names)).trans h
      rw [layout, List.filterMap_append, List.filterMap_append, layout_mentions rhs base hrhs,
        layout_mentions lhs _ h]
      exact congrArg _ (List.append_nil _)
  | .ifThen condition body, names, table, base, h => by
      have hcondition := (prefix_mention body (mention condition names)).trans h
      rw [layout, List.filterMap_append, layout_mentions condition base hcondition,
        List.filterMap_cons_none (mentioned?_of_key? rfl), layout_mentions body _ h]
      rfl
  | .forEach name iterable body, names, table, base, h => by
      have hname := (prefix_mention body ((mention iterable names).intern name)).trans h
      have hiterable := (prefix_intern (mention iterable names) name).trans hname
      have hbegin : ∀ target, table.mentioned?
          (.beginFor ((mention iterable names).keyOf name) target) = some name :=
        fun _ => name?_keyOf hname
      rw [layout, List.filterMap_append, layout_mentions iterable base hiterable,
        List.filterMap_cons_some (hbegin _), List.filterMap_append, layout_mentions body _ h]
      exact congrArg (_ ++ name :: ·) (List.append_nil _)

theorem layoutAll_mentions : (ns : List Node) → ∀ {names table : Names} (base : Nat),
    (mentionAll ns names).toList <+: table.toList →
    (layoutAll ns base names).filterMap table.mentioned? = Node.mentionsAll ns
  | [], _, _, _, _ => rfl
  | n :: ns, names, table, base, h => by
      have hfirst := (prefix_mentionAll ns (mention n names)).trans h
      rw [layoutAll, List.filterMap_append, layout_mentions n base hfirst,
        layoutAll_mentions ns _ h, Node.mentionsAll]

theorem layoutReversed_mentions : (ns : List Node) → ∀ {names table : Names} (base : Nat),
    (mentionReversed ns names).toList <+: table.toList →
    (layoutReversed ns base names).filterMap table.mentioned? = Node.mentionsReversed ns
  | [], _, _, _, _ => rfl
  | n :: ns, names, table, base, h => by
      have hlater := (prefix_mention n (mentionReversed ns names)).trans h
      rw [layoutReversed, List.filterMap_append, layoutReversed_mentions ns base hlater,
        layout_mentions n _ h, Node.mentionsReversed]

end

/-- The key of an instruction at an address is that of a name, and among some parts is the
    variable or the loop of that name which has its instruction there. -/
def Instruction.Resolves (table : Names) (parts : List Part) (k : Nat) : Instruction → Prop
  | .lookup key => ∃ name, table.name? key = some name ∧ ⟨.lookup name, k⟩ ∈ parts
  | .beginFor key _ => ∃ name iterable body start, table.name? key = some name ∧
      ⟨.forEach name iterable body, start⟩ ∈ parts ∧ k = start + iterable.codeSize
  | _ => True

/-- What is among some parts is among more. -/
theorem Along.moreParts {parts parts' : List Part} {base : Nat} {code : List Instruction}
    (h : Along (Instruction.Resolves table parts) base code) (hparts : parts ⊆ parts') :
    Along (Instruction.Resolves table parts') base code := by
  refine h.mono fun k i hi => ?_
  cases i with
  | lookup key =>
      rcases hi with ⟨name, hname, hpart⟩
      exact ⟨name, hname, hparts hpart⟩
  | beginFor key target =>
      rcases hi with ⟨name, iterable, body, start, hname, hpart, hk⟩
      exact ⟨name, iterable, body, start, hname, hparts hpart, hk⟩
  | _ => trivial

mutual

/-- Each key in the code of a node is that of the name of the node it was written for. -/
theorem layout_resolves : (n : Node) → ∀ {names table : Names} (base : Nat),
    (mention n names).toList <+: table.toList →
    Along (Instruction.Resolves table (n.parts base)) base (layout n base names)
  | .sequence statements, _, _, base, h =>
      (layoutAll_resolves statements base h).moreParts (List.subset_cons_self _ _)
  | .text _, _, _, _, _ => along_singleton.mpr trivial
  | .print e, _, _, base, h =>
      along_append.mpr ⟨(layout_resolves e base h).moreParts (List.subset_cons_self _ _),
        along_singleton.mpr trivial⟩
  | .integer _, _, _, _, _ => along_singleton.mpr trivial
  | .nil, _, _, _, _ => along_singleton.mpr trivial
  | .lookup name, _, _, _, h =>
      along_singleton.mpr ⟨name, name?_keyOf h, List.mem_cons_self⟩
  | .array elements, _, _, base, h =>
      along_append.mpr
        ⟨(layoutReversed_resolves elements base h).moreParts (List.subset_cons_self _ _),
          along_singleton.mpr trivial⟩
  | .binary op lhs rhs, names, table, base, h => by
      have hrhs := layout_resolves rhs base ((prefix_mention lhs (mention rhs names)).trans h)
      have hlhs := layout_resolves lhs (base + (layout rhs base names).length) h
      rw [layout_length] at hlhs
      refine along_append.mpr ⟨hrhs.moreParts ?_, ?_⟩
      · exact List.subset_cons_of_subset _ (List.subset_append_left _ _)
      · rw [layout_length]
        refine along_append.mpr ⟨hlhs.moreParts ?_, along_singleton.mpr trivial⟩
        exact List.subset_cons_of_subset _ (List.subset_append_right _ _)
  | .ifThen condition body, names, table, base, h => by
      have hcondition := layout_resolves condition base
        ((prefix_mention body (mention condition names)).trans h)
      have hbody := layout_resolves body (base + condition.codeSize + 1) h
      refine along_append.mpr ⟨hcondition.moreParts ?_, ?_⟩
      · exact List.subset_cons_of_subset _ (List.subset_append_left _ _)
      · rw [layout_length]
        refine along_cons.mpr ⟨trivial, hbody.moreParts ?_⟩
        exact List.subset_cons_of_subset _ (List.subset_append_right _ _)
  | .forEach name iterable body, names, table, base, h => by
      have hname := (prefix_mention body ((mention iterable names).intern name)).trans h
      have hiterable := layout_resolves iterable base
        ((prefix_intern (mention iterable names) name).trans hname)
      have hbody := layout_resolves body (base + iterable.codeSize + 1) h
      refine along_append.mpr ⟨hiterable.moreParts ?_, ?_⟩
      · exact List.subset_cons_of_subset _ (List.subset_append_left _ _)
      · rw [layout_length]
        refine along_cons.mpr
          ⟨?_, along_append.mpr ⟨hbody.moreParts ?_, along_singleton.mpr trivial⟩⟩
        · -- The loop itself stands in front of the parts inside it.
          exact ⟨name, iterable, body, base, name?_keyOf hname, List.mem_cons_self, rfl⟩
        · exact List.subset_cons_of_subset _ (List.subset_append_right _ _)

theorem layoutAll_resolves : (ns : List Node) → ∀ {names table : Names} (base : Nat),
    (mentionAll ns names).toList <+: table.toList →
    Along (Instruction.Resolves table (Node.partsAll ns base)) base (layoutAll ns base names)
  | [], _, _, _, _ => along_nil
  | n :: ns, names, table, base, h => by
      have hfirst := layout_resolves n base ((prefix_mentionAll ns (mention n names)).trans h)
      have hrest := layoutAll_resolves ns (base + n.codeSize) h
      refine along_append.mpr ⟨hfirst.moreParts (List.subset_append_left _ _), ?_⟩
      rw [layout_length]
      exact hrest.moreParts (List.subset_append_right _ _)

theorem layoutReversed_resolves : (ns : List Node) → ∀ {names table : Names} (base : Nat),
    (mentionReversed ns names).toList <+: table.toList →
    Along (Instruction.Resolves table (Node.partsReversed ns base)) base
      (layoutReversed ns base names)
  | [], _, _, _, _ => along_nil
  | n :: ns, names, table, base, h => by
      have hlater := layoutReversed_resolves ns base
        ((prefix_mention n (mentionReversed ns names)).trans h)
      have hfirst := layout_resolves n (base + Node.codeSizeAll ns) h
      refine along_append.mpr ⟨hlater.moreParts (List.subset_append_left _ _), ?_⟩
      rw [layoutReversed_length]
      exact hfirst.moreParts (List.subset_append_right _ _)

end

theorem prefix_compile_names (root : Node) :
    (mention root .empty).toList <+: (compile root).names.toList := by
  refine ⟨[], ?_⟩
  rw [List.append_nil, compile_names]

/-- The instructions of a program have the keys of the names of their nodes. -/
theorem compile_resolves (root : Node) (h : (compile root).code[k]? = some i) :
    i.Resolves (compile root).names (root.parts 0) k := by
  by_cases hi : i = .stop
  · subst hi
    trivial
  · have hmem := List.mk_mem_zipIdx_iff_getElem?.mp (mem_of_compile_code h hi)
    have hresolves := layout_resolves root 0 (prefix_compile_names root) k i hmem
    rwa [Nat.zero_add] at hresolves

/-- Every variable of a tree has its instruction, with the key of its name. -/
theorem exists_lookup {root : Node} {name : String} {start : Nat}
    (h : ⟨.lookup name, start⟩ ∈ root.parts 0) :
    ∃ key, (compile root).code[start]? = some (.lookup key) ∧
      (compile root).names.name? key = some name := by
  rcases compile_holdsParts root _ h with ⟨names, hlayout, hnames⟩
  exact ⟨names.keyOf name, hlayout 0 _ rfl, name?_keyOf hnames⟩

/-- Every loop of a tree has its beginning, with the key of its name. -/
theorem exists_beginFor {root iterable body : Node} {name : String} {start : Nat}
    (h : ⟨.forEach name iterable body, start⟩ ∈ root.parts 0) :
    ∃ key target, (compile root).code[start + iterable.codeSize]? = some (.beginFor key target) ∧
      (compile root).names.name? key = some name := by
  rcases compile_holdsParts root _ h with ⟨names, hlayout, hnames⟩
  have hname := (prefix_mention body ((mention iterable names).intern name)).trans hnames
  -- Behind the code of the iterable comes the beginning.
  have hbegin : ∃ target, (layout (.forEach name iterable body) start names)[iterable.codeSize]?
      = some (.beginFor ((mention iterable names).keyOf name) target) := by
    rw [layout, ← layout_length iterable start names, List.getElem?_append_right (Nat.le_refl _),
      Nat.sub_self]
    exact ⟨_, List.getElem?_cons_zero⟩
  rcases hbegin with ⟨target, hbegin⟩
  exact ⟨_, target, hlayout _ _ hbegin, name?_keyOf hname⟩

theorem compile_mentions (root : Node) :
    (compile root).code.toList.filterMap (compile root).names.mentioned? = root.mentions := by
  rw [compile_code, List.filterMap_append, layout_mentions root 0 (prefix_compile_names root)]
  exact List.append_nil _

/-- What a tree mentions are the names of its variables and loops. -/
theorem mem_names_iff {root : Node} {name : String} :
    name ∈ (compile root).names.toList ↔ ∃ part ∈ root.parts 0, part.node.name? = some name := by
  rw [compile_names_eq, List.mem_eraseDups, ← compile_mentions]
  constructor
  · intro h
    rcases List.mem_filterMap.mp h with ⟨i, hi, hmentioned⟩
    rcases List.mem_iff_getElem?.mp hi with ⟨k, hk⟩
    rw [Array.getElem?_toList] at hk
    have hresolves := compile_resolves root hk
    cases i with
    | lookup key =>
        rcases hresolves with ⟨other, hother, hpart⟩
        cases hother.symm.trans hmentioned
        exact ⟨_, hpart, rfl⟩
    | beginFor key target =>
        rcases hresolves with ⟨other, iterable, body, start, hother, hpart, _⟩
        cases hother.symm.trans hmentioned
        exact ⟨_, hpart, rfl⟩
    | _ => exact nomatch hmentioned
  · rintro ⟨⟨node, start⟩, hpart, hname⟩
    cases node with
    | lookup other =>
        cases hname
        rcases exists_lookup hpart with ⟨key, hi, hkey⟩
        rw [← Array.getElem?_toList] at hi
        exact List.mem_filterMap.mpr ⟨_, List.mem_of_getElem? hi, hkey⟩
    | forEach other iterable body =>
        cases hname
        rcases exists_beginFor hpart with ⟨key, target, hi, hkey⟩
        rw [← Array.getElem?_toList] at hi
        exact List.mem_filterMap.mpr ⟨_, List.mem_of_getElem? hi, hkey⟩
    | _ => exact nomatch hname

end Code

section Roots

variable {names : Names} {entries : List (String × Value)} {pairs : List (Nat × Value)}

/-- The values of variables by the keys of their names, without the variables whose name has
    no key. -/
def Names.keyed (names : Names) (entries : List (String × Value)) : List (Nat × Value) :=
  entries.filterMap fun entry => (names.key? entry.1).map fun key => (key, entry.2)

/-- The scope in which values are bound to keys one after another. -/
def bindAll (pairs : List (Nat × Value)) : Nat → Option Value :=
  pairs.foldl (fun root pair => Function.update root pair.1 (some pair.2)) fun _ => none

theorem bindAll_concat (pairs : List (Nat × Value)) (key : Nat) (v : Value) :
    bindAll (pairs ++ [(key, v)]) = Function.update (bindAll pairs) key (some v) := by
  rw [bindAll, List.foldl_append, ← bindAll]
  rfl

/-- Where no key comes twice, each is bound to its own value. -/
theorem bindAll_eq_some_iff {key : Nat} {v : Value} (h : (pairs.map Prod.fst).Nodup) :
    bindAll pairs key = some v ↔ (key, v) ∈ pairs := by
  -- The last of the pairs is the one that is bound last.
  induction pairs using List.reverseRecOn with
  | nil => exact ⟨nofun, nofun⟩
  | append_singleton pairs pair ih =>
      rcases pair with ⟨other, w⟩
      rw [List.map_append, List.nodup_append] at h
      rw [bindAll_concat, List.mem_append, List.mem_singleton, Prod.mk.injEq]
      by_cases hkey : key = other
      · subst hkey
        have hfresh : (key, v) ∉ pairs := fun hmem =>
          h.2.2 key (List.mem_map_of_mem hmem) key List.mem_cons_self rfl
        rw [Function.update_self, Option.some.injEq]
        exact ⟨fun hv => .inr ⟨rfl, hv.symm⟩, fun hv => (hv.resolve_left hfresh).2.symm⟩
      · rw [Function.update_of_ne hkey, ih h.1]
        exact ⟨.inl, fun hv => hv.resolve_right fun hlast => hkey hlast.1⟩

theorem mem_keyed_iff {key : Nat} {v : Value} : (key, v) ∈ names.keyed entries ↔
    ∃ name, names.name? key = some name ∧ (name, v) ∈ entries := by
  rw [Names.keyed, List.mem_filterMap]
  constructor
  · rintro ⟨⟨name, w⟩, hentry, hkeyed⟩
    rcases Option.map_eq_some_iff.mp hkeyed with ⟨other, hkey, heq⟩
    cases heq
    exact ⟨name, key?_eq_some_iff.mp hkey, hentry⟩
  · rintro ⟨name, hname, hentry⟩
    refine ⟨(name, v), hentry, ?_⟩
    rw [key?_eq_some_iff.mpr hname, Option.map_some]

/-- No two variables have the same key. -/
theorem nodup_keyed (h : (entries.map Prod.fst).Nodup) :
    ((names.keyed entries).map Prod.fst).Nodup := by
  have hkeys :
      (names.keyed entries).map Prod.fst = (entries.map Prod.fst).filterMap names.key? := by
    rw [Names.keyed, List.map_filterMap, List.filterMap_map]
    refine List.filterMap_congr fun entry _ => ?_
    rw [Option.map_map]
    exact Option.map_id'
  rw [hkeys]
  refine h.filterMap fun name other key hname hother => ?_
  exact Option.some.inj ((key?_eq_some_iff.mp hname).symm.trans (key?_eq_some_iff.mp hother))

/-- Binding the variables that have a key, in whatever order, makes the root scope. -/
theorem bindAll_keyed (p : Program) {vars : Vars} (hentries : entries.Perm vars.entries) :
    ((p.names.keyed entries).map Prod.fst).Nodup ∧
      bindAll (p.names.keyed entries) = p.root vars := by
  have hnodup : ((p.names.keyed entries).map Prod.fst).Nodup :=
    nodup_keyed ((hentries.map Prod.fst).nodup_iff.mpr vars.nodup_names)
  refine ⟨hnodup, funext fun key => Option.ext fun v => ?_⟩
  rw [bindAll_eq_some_iff hnodup, mem_keyed_iff, Program.root, Option.bind_eq_some_iff]
  simp only [hentries.mem_iff, Vars.get?_eq_some_iff]

end Roots

/-- The keys of a program are those of the names of a tree. -/
structure Keyed (root : Node) (p : Program) : Prop where
  /-- The names are those that the code refers to, in the order in which it first does. -/
  first_mention : p.names.toList = (p.code.toList.filterMap p.names.mentioned?).eraseDups
  /-- The code refers to names in the order in which the tree is written. -/
  mentions : p.code.toList.filterMap p.names.mentioned? = root.mentions
  /-- The names are those of the variables and loops of the tree. -/
  mem_names : ∀ name, name ∈ p.names.toList ↔
    ∃ part ∈ root.parts 0, part.node.name? = some name
  /-- The name of a key has this key, and the other way round. -/
  inverse : ∀ key name, p.names.name? key = some name ↔ p.names.key? name = some key
  /-- The keys that have a name are the numbers up to the number of names. -/
  name?_isSome : ∀ key, (p.names.name? key).isSome ↔ key < p.names.size
  /-- The names that have a key are those of the table. -/
  key?_isSome : ∀ name, (p.names.key? name).isSome ↔ name ∈ p.names.toList
  /-- Each key in the code is that of the name of the node it was written for. -/
  resolves : ∀ (k : Nat) (i : Instruction), p.code[k]? = some i →
    i.Resolves p.names (root.parts 0) k
  /-- Every variable has its instruction, with the key of its name. -/
  lookups : ∀ name start, ⟨.lookup name, start⟩ ∈ root.parts 0 →
    ∃ key, p.code[start]? = some (.lookup key) ∧ p.names.name? key = some name
  /-- Every loop has its beginning behind the iterable, with the key of its name. -/
  loops : ∀ name iterable body start, ⟨.forEach name iterable body, start⟩ ∈ root.parts 0 →
    ∃ key target, p.code[start + iterable.codeSize]? = some (.beginFor key target) ∧
      p.names.name? key = some name

/-- The names of the program of a tree stand in the order in which the code first refers to
    them, keys and names are inverse to each other, and each key in the code is that of the
    name of its node. So binding the variables of a run by their keys, in whatever order,
    binds no key twice, and each key comes to the value of the variable of its name, or to
    nil without one. -/
theorem compile_keyed (root : Node) : Keyed root (compile root) ∧
    ∀ (vars : Vars) (entries : List (String × Value)), entries.Perm vars.entries →
      (((compile root).names.keyed entries).map Prod.fst).Nodup ∧
      ((compile root).start vars).scopes = .ofRoot (bindAll ((compile root).names.keyed entries)) ∧
      ∀ key, bindAll ((compile root).names.keyed entries) key
          = ((compile root).names.name? key).bind vars.get? ∧
        ((compile root).start vars).scopes.lookup key
          = Value.ofOption (((compile root).names.name? key).bind vars.get?) := by
  refine ⟨?_, fun vars entries hentries => ?_⟩
  · exact {
      first_mention := by rw [compile_mentions, compile_names_eq]
      mentions := compile_mentions root
      mem_names := fun _ => mem_names_iff
      inverse := fun _ _ => key?_eq_some_iff.symm
      name?_isSome := fun _ => name?_isSome
      key?_isSome := fun _ => key?_isSome
      resolves := fun _ _ => compile_resolves root
      lookups := fun _ _ => exists_lookup
      loops := fun _ _ _ _ => exists_beginFor }
  · rcases bindAll_keyed (compile root) hentries with ⟨hnodup, hroot⟩
    refine ⟨hnodup, by rw [hroot, Program.start], fun key => ⟨by rw [hroot, Program.root], ?_⟩⟩
    -- No loop is running yet, so the root decides.
    rfl

end Stencil
