import Tickle.Proofs.Token.Suffix
import Tickle.Proofs.Tree.ScriptGrammar
import Tickle.Run.Substitute

/-! # Names in an index

An index runs from the last opening parenthesis of a name, so it holds none itself, and a name that
is written in it is that of a scalar. Hence it makes no difference whether the references in an
index are read as scalars or as references in general; and a reference in an index is shorter than
the one whose index it is. -/

namespace Tickle

namespace Token.Substitution

/-- A step goes forward in the text, and a name that it reads is written there. -/
theorem next?_sublist {s s' : Scanner Mode} {t : Token} (h : next? s = some (t, s')) :
    s'.rest <:+ s.rest ∧
      (t.kind = .name → ∃ name : List Char, t.text = some (String.ofList name) ∧
        name.Sublist s.rest) := by
  obtain ⟨size, rest, mode⟩ := s
  cases rest with
  | nil => cases h
  | cons c rest =>
    cases mode with
    | plain =>
      simp only [next?] at h
      split at h
      · cases h
        exact ⟨List.suffix_cons c rest, fun hk => by cases hk⟩
      · split at h
        · cases h
          exact ⟨List.suffix_cons c rest, fun hk => by cases hk⟩
        · cases h
          exact ⟨Reader.readPlain_suffix _ _, fun hk => by cases hk⟩
    | name =>
      cases h
      exact ⟨Reader.readName_suffix _, fun _ => ⟨_, rfl, Reader.readName_sublist _⟩⟩
    | inside =>
      cases h
      exact ⟨⟨_, Reader.readBracketed_append 0 0 (c :: rest)⟩, fun hk => by cases hk⟩
    | closing =>
      cases h
      exact ⟨List.suffix_cons c rest, fun hk => by cases hk⟩

theorem name_sublist_of_mem {s : Scanner Mode} {t : Token} (ht : t ∈ tokensFrom s)
    (hk : t.kind = .name) :
    ∃ name : List Char, t.text = some (String.ofList name) ∧ name.Sublist s.rest := by
  fun_induction tokensFrom s with
  | case1 s h =>
    rw [List.mem_singleton.1 ht] at hk
    cases hk
  | case2 s t' s' h ih =>
    obtain ⟨hrest, hname⟩ := next?_sublist h
    rcases List.mem_cons.1 ht with rfl | ht
    · exact hname hk
    · obtain ⟨name, htext, hsub⟩ := ih ht
      exact ⟨name, htext, hsub.trans hrest.sublist⟩

end Token.Substitution

namespace Tree

theorem mem_of_expect {kind : Token.Kind} {tokens : List Token} {t : Token}
    {rest : Token.After tokens} (h : expect kind tokens = .ok (t, rest)) :
    t ∈ tokens ∧ t.kind = kind ∧ rest.1 <:+ tokens := by
  obtain ⟨htokens, hkind⟩ := eq_cons_of_expect h
  refine ⟨?_, hkind, [t], htokens.symm⟩
  rw [htokens]
  exact List.mem_cons_self

theorem suffix_of_enclosed {close : Token.Kind} {tokens : List Token} {text : String}
    {rest : Token.After tokens} (h : enclosed close tokens = .ok (text, rest)) :
    rest.1 <:+ tokens := by
  obtain ⟨inner, closing, htokens, -⟩ := eq_cons_of_enclosed h
  exact ⟨[inner, closing], htokens.symm⟩

/-- A fragment that is no list, and if it is a name, that of one of the tokens. -/
structure FlatIn (tokens : List Token) (node : Node) : Prop where
  not_list : node.kind ≠ .list
  name : node.kind = .name → ∃ t ∈ tokens, t.kind = .name ∧ t.text = node.text

theorem FlatIn.mono {tokens larger : List Token} {node : Node} (h : FlatIn tokens node)
    (hsub : tokens ⊆ larger) : FlatIn larger node where
  not_list := h.not_list
  name hk := by
    obtain ⟨t, ht, htext⟩ := h.name hk
    exact ⟨t, hsub ht, htext⟩

theorem flatIn_of_fragments {tokens : List Token} {nodes : List Node}
    (h : fragments tokens = .ok nodes) : ∀ node ∈ nodes, FlatIn tokens node := by
  fun_induction fragments tokens generalizing nodes with
  | case1 =>
    cases h
    intro node hnode
    cases hnode
  | case2 t rest hk ih =>
    obtain ⟨more, hmore, h⟩ := exists_of_bind_eq_ok h
    cases h
    refine List.forall_mem_cons.2
      ⟨⟨(fun hk => by cases hk), (fun hk => by cases hk)⟩, fun node hnode => ?_⟩
    exact (ih hmore node hnode).mono (List.suffix_cons t rest).subset
  | case3 t rest hk ih =>
    obtain ⟨⟨name, rest'⟩, hname, h⟩ := exists_of_bind_eq_ok h
    obtain ⟨more, hmore, h⟩ := exists_of_bind_eq_ok h
    cases h
    obtain ⟨hmem, hkind, hrest⟩ := mem_of_expect hname
    refine List.forall_mem_cons.2 ⟨⟨(fun hk => by cases hk), fun _ => ?_⟩, fun node hnode => ?_⟩
    · exact ⟨name, List.mem_cons_of_mem _ hmem, hkind, rfl⟩
    · exact (ih rest' hmore node hnode).mono (hrest.trans (List.suffix_cons t rest)).subset
  | case4 t rest hk ih =>
    obtain ⟨⟨script, rest'⟩, hscript, h⟩ := exists_of_bind_eq_ok h
    obtain ⟨more, hmore, h⟩ := exists_of_bind_eq_ok h
    cases h
    have hrest := suffix_of_enclosed hscript
    refine List.forall_mem_cons.2
      ⟨⟨(fun hk => by cases hk), (fun hk => by cases hk)⟩, fun node hnode => ?_⟩
    exact (ih rest' hmore node hnode).mono (hrest.trans (List.suffix_cons t rest)).subset
  | case5 => cases h

/-- A fragment of a text, in which a name is written. -/
theorem of_parseSubstitution {text : String} {tree : Node} (h : parseSubstitution text = .ok tree)
    {node : Node} (hnode : node ∈ tree.children) :
    node.kind ≠ .list ∧ (node.kind = .name → node.value.toList.Sublist text.toList) := by
  cases hf : fragments (Token.untilEnd (Token.Substitution.tokens text)) with
  | error e =>
    rw [parseSubstitution, substitutionOfTokens, hf] at h
    cases h
  | ok nodes =>
    rw [parseSubstitution, substitutionOfTokens, hf] at h
    cases h
    obtain ⟨hlist, hname⟩ := flatIn_of_fragments hf node hnode
    refine ⟨hlist, fun hk => ?_⟩
    obtain ⟨t, ht, hkind, htext⟩ := hname hk
    obtain ⟨name, hn, hsub⟩ :=
      Token.Substitution.name_sublist_of_mem (List.takeWhile_subset _ ht) hkind
    rw [Node.value, ← htext, hn, Option.getD_some, String.toList_ofList]
    exact hsub

end Tree

namespace VarName

/-- An index holds no opening parenthesis. -/
theorem not_mem_index_of_read {name array index : String} (h : read name = .element array index) :
    '(' ∉ index.toList := by
  unfold read at h
  split at h
  · split at h
    · cases h
    · cases h
      intro hmem
      have hall := List.all_eq_true.1 (List.all_takeWhile (p := (· ≠ '('))) '('
        (List.mem_reverse.1 (by simpa using hmem))
      simp at hall
  · cases h

theorem read_of_not_mem {name : String} (h : '(' ∉ name.toList) : read name = .scalar name := by
  unfold read
  split
  · rename_i rest hr
    split
    · rfl
    · rename_i c array hd
      have hc : c ∈ rest.dropWhile (· ≠ '(') := by rw [hd]; exact List.mem_cons_self
      have hhead := List.head?_dropWhile_not (· ≠ '(') rest
      rw [hd] at hhead
      have hparen : c = '(' := by simpa using hhead
      have hmem : c ∈ name.toList.reverse := by
        rw [hr]
        exact List.mem_cons_of_mem _ ((List.dropWhile_suffix _).subset hc)
      exact absurd (hparen ▸ List.mem_reverse.1 hmem) h
  · rfl

theorem length_index_lt {name array index : String} (h : read name = .element array index) :
    index.length + 1 < name.length := by
  have htext := text_read name
  rw [h, text] at htext
  have hlength := congrArg String.length htext
  simp only [String.length_append] at hlength
  have hopen : "(".length = 1 := rfl
  have hclose : ")".length = 1 := rfl
  omega

end VarName

namespace Env

/-- Ways of reading names that agree on the names of the fragments read the same text. -/
theorem readFragments_congr (env : Env) {readName readName' : Node → RunM String}
    {nodes : List Node} (h : ∀ node ∈ nodes, node.kind ≠ .list ∧
      (node.kind = .name → readName node = readName' node)) :
    env.readFragments readName nodes = env.readFragments readName' nodes := by
  induction nodes with
  | nil => rfl
  | cons node rest ih =>
    obtain ⟨⟨hlist, hname⟩, hrest⟩ := List.forall_mem_cons.1 h
    have hfirst : env.readFragment readName node = env.readFragment readName' node := by
      obtain ⟨kind, text, children⟩ := node
      cases kind
      case name => exact hname rfl
      case list => exact absurd rfl hlist
      all_goals rfl
    rw [readFragments, readFragments, hfirst, ih hrest]

/-- The references in an index can be read like any others. -/
theorem substitute_index (env : Env) {index : String} (h : '(' ∉ index.toList) :
    env.substitute env.readScalar index = env.substitute env.readVariable index := by
  unfold substitute
  cases hp : Tree.parseSubstitution index with
  | error e => rfl
  | ok tree =>
    refine env.readFragments_congr fun node hnode => ?_
    obtain ⟨hlist, hname⟩ := Tree.of_parseSubstitution hp hnode
    refine ⟨hlist, fun hk => ?_⟩
    have hscalar := VarName.read_of_not_mem fun hmem => h ((hname hk).subset hmem)
    rw [readVariable, hscalar]

end Env

end Tickle
