import Tickle.Proofs.ListText.Stability
import Tickle.Proofs.Run.ElementIndex
import Mathlib.Data.List.DropRight

/-! # Lists side by side

A text is read as the elements of its two halves if a blank stands between them and the first half
does not end inside a group: a brace closes in front of the blank as it does at the end of a text,
and the blanks around the joint count as one. So `lappend` adds the elements of each value, and it
does not matter how the values are divided among calls. -/

namespace Tickle.ListText

open Tickle.Text

/-! ## Trimming -/

/-- No blank stands at either end. -/
structure Trimmed (cs : List Char) : Prop where
  start : ∀ c ∈ cs.head?, isBlank c = false
  stop : ∀ c ∈ cs.getLast?, isBlank c = false

theorem trim_eq_rdropWhile (cs : List Char) :
    trim isBlank cs = (cs.dropWhile isBlank).rdropWhile isBlank := rfl

theorem trimmed_trim (cs : List Char) : Trimmed (trim isBlank cs) := by
  rw [trim_eq_rdropWhile]
  refine ⟨fun c hc => ?_, fun c hc => ?_⟩
  · obtain ⟨rest, hrest⟩ := List.rdropWhile_prefix isBlank (cs.dropWhile isBlank)
    have hfirst := List.head?_dropWhile_not isBlank cs
    rw [← hrest, List.head?_append, hc] at hfirst
    simpa using hfirst
  · obtain ⟨hne, rfl⟩ := List.mem_getLast?_eq_getLast hc
    simpa using List.rdropWhile_last_not isBlank (cs.dropWhile isBlank) hne

/-- Blanks at both ends are all that is cut off. -/
theorem trim_of_trimmed {front core back : List Char} (h : Trimmed core)
    (hfront : ∀ c ∈ front, isBlank c = true) (hback : ∀ c ∈ back, isBlank c = true) :
    trim isBlank (front ++ core ++ back) = core := by
  rw [trim_eq_rdropWhile, List.append_assoc, List.dropWhile_append_of_pos hfront]
  cases core with
  | nil =>
    rw [List.nil_append, List.dropWhile_eq_nil_iff.2 hback, List.rdropWhile_nil]
  | cons c core =>
    have hstart : ((c :: core) ++ back).dropWhile isBlank = (c :: core) ++ back :=
      List.dropWhile_cons_of_neg (by simpa using h.start c rfl)
    have hback : ∀ d ∈ back.reverse, isBlank d = true := fun d hd => hback d (List.mem_reverse.1 hd)
    rw [hstart, List.rdropWhile, List.reverse_append, List.dropWhile_append_of_pos hback]
    refine List.rdropWhile_eq_self_iff.2 fun hne => ?_
    simpa using h.stop _ (List.getLast_mem_getLast? hne)

theorem Trimmed.append {core gap core' : List Char} (h : Trimmed core) (h' : Trimmed core')
    (hne : core ≠ []) (hne' : core' ≠ []) : Trimmed (core ++ (gap ++ core')) where
  start := by
    rw [List.head?_append_of_ne_nil _ hne]
    exact h.start
  stop := by
    rw [List.getLast?_append_of_ne_nil _ (List.append_ne_nil_of_right_ne_nil _ hne'),
      List.getLast?_append_of_ne_nil _ hne']
    exact h'.stop

/-- A blank between two texts. If one of them is all blanks, only the other is left; else there are
blanks between what is left of both. -/
theorem trim_append_blank {sep : Char} (hsep : isBlank sep = true) (cs ds : List Char) :
    (trim isBlank cs = [] ∧ trim isBlank (cs ++ sep :: ds) = trim isBlank ds) ∨
    (trim isBlank ds = [] ∧ trim isBlank (cs ++ sep :: ds) = trim isBlank cs) ∨
    trim isBlank cs ≠ [] ∧ trim isBlank ds ≠ [] ∧ ∃ gap, gap ≠ [] ∧ (∀ c ∈ gap, isBlank c = true) ∧
      trim isBlank (cs ++ sep :: ds) = trim isBlank cs ++ (gap ++ trim isBlank ds) := by
  obtain ⟨front, after, hcs, hfront, hafter⟩ := exists_trim_append cs
  obtain ⟨before, back, hds, hbefore, hback⟩ := exists_trim_append ds
  have hcore := trimmed_trim cs
  have hcore' := trimmed_trim ds
  generalize trim isBlank cs = core at hcs hcore ⊢
  generalize trim isBlank ds = core' at hds hcore' ⊢
  subst hcs hds
  have hgap : ∀ c ∈ after ++ sep :: before, isBlank c = true :=
    List.forall_mem_append.2 ⟨hafter, List.forall_mem_cons.2 ⟨hsep, hbefore⟩⟩
  by_cases hne : core = []
  · subst hne
    refine .inl ⟨rfl, ?_⟩
    simpa using trim_of_trimmed hcore' (List.forall_mem_append.2 ⟨hfront, hgap⟩) hback
  · by_cases hne' : core' = []
    · subst hne'
      refine .inr (.inl ⟨rfl, ?_⟩)
      simpa using trim_of_trimmed hcore hfront (List.forall_mem_append.2 ⟨hgap, hback⟩)
    · refine .inr (.inr ⟨hne, hne', after ++ sep :: before, by simp, hgap, ?_⟩)
      have hwhole : Trimmed (core ++ (after ++ sep :: before ++ core')) :=
        hcore.append hcore' hne hne'
      simpa using trim_of_trimmed hwhole hfront hback

/-! ## Places -/

/-- Where a text that is read from a place on ends. -/
def placeAtEnd : Place → List Char → Place
  | place, [] => place
  | place, c :: rest => placeAtEnd (place.next c rest) rest

/-- What the character at a place does to the elements that are read behind it. -/
def Place.put (place : Place) (c : Char) (rest : List Char) (elements : List (List Char)) :
    List (List Char) :=
  match place with
  | .bare => if c = '{' then elements else if isBlank c then [] :: elements else extend c elements
  | .gap => if isBlank c || c = '{' then elements else extend c elements
  | .group opened _ => if closesGroup opened c rest then elements else extend c elements

/-- Reading goes from place to place. -/
theorem elementsFrom_cons (place : Place) (c : Char) (rest : List Char) :
    elementsFrom isBlank place (c :: rest) =
      place.put c rest (elementsFrom isBlank (place.next c rest) rest) := by
  cases place with
  | bare =>
    simp only [elementsFrom, Place.put, Place.next]
    split_ifs <;> rfl
  | gap =>
    have hbrace : isBlank '{' = false := by decide
    simp only [elementsFrom, Place.put, Place.next]
    by_cases hc : c = '{'
    · simp [hc, hbrace]
    · by_cases hb : isBlank c = true <;> simp [hc, hb]
  | group opened before =>
    rw [Place.put]
    split
    · rename_i hclose
      obtain ⟨⟨rfl, rfl⟩, hb⟩ : (c = '}' ∧ opened = 0) ∧ rest.head?.all isBlank = true := by
        simpa [closesGroup] using hclose
      simp [elementsFrom, Place.next, hb]
    · rename_i hclose
      exact elementsFrom_next_group (by simpa using hclose)

section Blank

variable {sep : Char} (hsep : isBlank sep = true)
include hsep

theorem head_append_blank (cs rest : List Char) :
    (cs ++ sep :: rest).head?.all isBlank = cs.head?.all isBlank := by
  cases cs with
  | nil => exact hsep
  | cons c cs => rfl

theorem Place.next_append_blank (place : Place) (c : Char) (cs rest : List Char) :
    place.next c (cs ++ sep :: rest) = place.next c cs := by
  cases place <;> simp only [Place.next, head_append_blank hsep]

theorem closesGroup_append_blank (opened : Nat) (c : Char) (cs rest : List Char) :
    closesGroup opened c (cs ++ sep :: rest) = closesGroup opened c cs := by
  rw [closesGroup, closesGroup, head_append_blank hsep]

theorem Place.put_append_blank (place : Place) (c : Char) (cs rest : List Char)
    {elements : List (List Char)} (hne : elements ≠ []) (more : List (List Char)) :
    place.put c (cs ++ sep :: rest) (elements ++ more) = place.put c cs elements ++ more := by
  obtain ⟨e, es, rfl⟩ := List.exists_cons_of_ne_nil hne
  cases place <;> simp only [Place.put, closesGroup_append_blank hsep] <;> split_ifs <;> rfl

/-- A blank behind a text is met where the text ends. -/
theorem placeAtEnd_append_blank (place : Place) (cs rest : List Char) :
    placeAtEnd place (cs ++ sep :: rest) = placeAtEnd (placeAtEnd place cs) (sep :: rest) := by
  induction cs generalizing place with
  | nil => rfl
  | cons c cs ih =>
    rw [List.cons_append, placeAtEnd, Place.next_append_blank hsep, ih]
    rfl

/-- Behind a text that ends in a bare element, a blank ends the element. -/
theorem elementsFrom_append_blank {place : Place} {cs : List Char}
    (hend : placeAtEnd place cs = .bare) (rest : List Char) :
    elementsFrom isBlank place (cs ++ sep :: rest) =
      elementsFrom isBlank place cs ++ elementsFrom isBlank .gap rest := by
  induction cs generalizing place with
  | nil =>
    have hne : sep ≠ '{' := by
      rintro rfl
      exact absurd hsep (by decide)
    cases hend
    simp [elementsFrom, hne, hsep]
  | cons c cs ih =>
    rw [List.cons_append, elementsFrom_cons, Place.next_append_blank hsep, ih hend,
      Place.put_append_blank hsep _ _ _ _ (elementsFrom_ne_nil _ _ _), ← elementsFrom_cons]

end Blank

theorem Place.next_ne_gap (place : Place) {c : Char} (hc : isBlank c = false) (rest : List Char) :
    place.next c rest ≠ .gap := by
  cases place with
  | bare | gap =>
    simp only [Place.next, hc, Bool.false_eq_true, if_false]
    intro hgap
    split_ifs at hgap
  | group opened before =>
    simp only [Place.next]
    intro hgap
    split_ifs at hgap
    cases opened <;> cases hgap

/-- A text that does not end with a blank does not end in a gap. -/
theorem placeAtEnd_ne_gap (place : Place) {cs : List Char} (hne : cs ≠ [])
    (hlast : ∀ c ∈ cs.getLast?, isBlank c = false) : placeAtEnd place cs ≠ .gap := by
  induction cs generalizing place with
  | nil => exact absurd rfl hne
  | cons c rest ih =>
    cases rest with
    | nil => exact place.next_ne_gap (hlast c rfl) []
    | cons d rest =>
      rw [placeAtEnd]
      exact ih _ (List.cons_ne_nil d rest) fun e he => hlast e (by simpa using he)

/-! ## Texts side by side -/

theorem placeAtEnd_gap_append {gap : List Char} (hgap : ∀ c ∈ gap, isBlank c = true)
    (cs : List Char) : placeAtEnd .gap (gap ++ cs) = placeAtEnd .gap cs := by
  induction gap with
  | nil => rfl
  | cons c gap ih =>
    obtain ⟨hc, hgap⟩ := List.forall_mem_cons.1 hgap
    have hne : c ≠ '{' := by
      rintro rfl
      exact absurd hc (by decide)
    have hnext : Place.gap.next c (gap ++ cs) = .gap := by
      simp [Place.next, hne, hc]
    rw [List.cons_append, placeAtEnd, hnext, ih hgap]

/-- Where no blank follows, a gap is read as the beginning of a text. -/
theorem elementsFrom_gap_of_trimmed {cs : List Char} (h : Trimmed cs) :
    elementsFrom isBlank .gap cs = elementsFrom isBlank .bare cs := by
  cases cs with
  | nil => rfl
  | cons c rest =>
    have hc : isBlank c = false := h.start c rfl
    simp [elementsFrom, hc]

theorem placeAtEnd_gap_of_ne_nil {cs : List Char} (h : cs ≠ []) :
    placeAtEnd .gap cs = placeAtEnd .bare cs := by
  cases cs with
  | nil => exact absurd rfl h
  | cons c rest => rfl

/-- The scan of a text does not end inside a group. -/
def Closed (text : String) : Prop :=
  (placeAtEnd .bare (trim isBlank text.toList)).inGroup = false

instance (text : String) : Decidable (Closed text) := inferInstanceAs (Decidable (_ = _))

/-- A closed text that is not all blanks ends in a bare element. -/
theorem Closed.placeAtEnd_eq {text : String} (h : Closed text)
    (hne : trim isBlank text.toList ≠ []) :
    placeAtEnd .bare (trim isBlank text.toList) = .bare := by
  have hgap := placeAtEnd_ne_gap .bare hne (trimmed_trim text.toList).stop
  rw [Closed] at h
  cases hplace : placeAtEnd .bare (trim isBlank text.toList) with
  | bare => rfl
  | gap => exact absurd hplace hgap
  | group opened before =>
    rw [hplace] at h
    cases h

theorem toList_append_space (a b : String) :
    (a ++ " " ++ b).toList = a.toList ++ ' ' :: b.toList := by
  simp [String.toList_append]

theorem parse_eq_of_ne_nil {text : String} (h : trim isBlank text.toList ≠ []) :
    parse text = (elementsFrom isBlank .bare (trim isBlank text.toList)).map String.ofList := by
  rw [parse, elements_of_ne_nil _ h]

/-- Two texts with a space between them are read as the elements of the first and then those of the
second, if the first does not end inside a group. -/
theorem Closed.parse_append {a : String} (h : Closed a) (b : String) :
    parse (a ++ " " ++ b) = parse a ++ parse b := by
  have hspace : isBlank ' ' = true := by decide
  rcases trim_append_blank hspace a.toList b.toList with
    ⟨ha, htrim⟩ | ⟨hb, htrim⟩ | ⟨ha, hb, gap, hne, hgap, htrim⟩
  · simp [parse, htrim, ha, elements]
  · simp [parse, htrim, hb, elements]
  · obtain ⟨sep, gap, rfl⟩ := List.exists_cons_of_ne_nil hne
    obtain ⟨hsep, hgap⟩ := List.forall_mem_cons.1 hgap
    have hwhole : trim isBlank (a ++ " " ++ b).toList ≠ [] := by
      rw [toList_append_space, htrim]
      simp
    rw [parse_eq_of_ne_nil hwhole, parse_eq_of_ne_nil ha, parse_eq_of_ne_nil hb,
      toList_append_space, htrim, List.cons_append,
      elementsFrom_append_blank hsep (h.placeAtEnd_eq ha), elementsFrom_gap_append hgap,
      elementsFrom_gap_of_trimmed (trimmed_trim _), List.map_append]

theorem Closed.append {a b : String} (ha : Closed a) (hb : Closed b) : Closed (a ++ " " ++ b) := by
  have hspace : isBlank ' ' = true := by decide
  rw [Closed, toList_append_space]
  rcases trim_append_blank hspace a.toList b.toList with
    ⟨-, htrim⟩ | ⟨-, htrim⟩ | ⟨hcore, hcore', gap, hne, hgap, htrim⟩
  · rw [htrim]
    exact hb
  · rw [htrim]
    exact ha
  · obtain ⟨sep, gap, rfl⟩ := List.exists_cons_of_ne_nil hne
    obtain ⟨hsep, -⟩ := List.forall_mem_cons.1 hgap
    have hnext : ∀ rest, placeAtEnd .bare (sep :: rest) = placeAtEnd .gap (sep :: rest) :=
      fun rest => (placeAtEnd_gap_of_ne_nil (List.cons_ne_nil sep rest)).symm
    rw [htrim, List.cons_append, placeAtEnd_append_blank hsep, ha.placeAtEnd_eq hcore, hnext,
      ← List.cons_append, placeAtEnd_gap_append hgap, placeAtEnd_gap_of_ne_nil hcore']
    exact hb

end Tickle.ListText

/-! ## Appending -/

namespace Tickle

open ListText

namespace Lists

/-- Appending closed values to a closed list adds the elements of each of them, and the list is
closed again. -/
theorem parse_append {list : String} {values : List String} (hlist : Closed list)
    (hvalues : ∀ v ∈ values, Closed v) :
    Closed (append list values) ∧
      parse (append list values) = parse list ++ values.flatMap parse := by
  induction values generalizing list with
  | nil => exact ⟨hlist, by simp [append]⟩
  | cons v values ih =>
    obtain ⟨hv, hvalues⟩ := List.forall_mem_cons.1 hvalues
    have hstep : append list (v :: values) =
        append (if list.isEmpty then v else list ++ " " ++ v) values := rfl
    rw [hstep, List.flatMap_cons, ← List.append_assoc]
    split
    · rename_i hempty
      have hnone : parse list = [] := by
        rw [String.isEmpty_iff.1 hempty]
        decide
      rw [hnone, List.nil_append]
      exact ih hv hvalues
    · rw [← hlist.parse_append]
      exact ih (hlist.append hv) hvalues

/-- Values may be appended in parts. -/
theorem append_append (list : String) (values more : List String) :
    append list (values ++ more) = append (append list values) more :=
  List.foldl_append

end Lists

namespace Env

open RunM

/-- Text of a variable; one that is not set has none. -/
def text (env : Env) (s : Run) (name : String) : String :=
  (s.scopes.get? env.scope (.read name)).getD ""

variable {env : Env} {s : Run} {scope : Scope}

/-- What `lappend` leaves of a state. -/
def appended (env : Env) (name : String) (values : List String) (s : Run) : Run :=
  { s with
    scopes := s.scopes.set env.scope (.read name) (Lists.append (env.text s name) values) }

theorem returns_lappend (env : Env) (node : Node) (name : String) (values : List String) (s : Run) :
    ∃ outcome, (env.perform .lappend node (name :: values)).Returns s outcome
      (env.appended name values s) :=
  ⟨_, rfl⟩

theorem get?_appended (h : s.scopes.scopes[env.scope]? = some scope) (name : String)
    (values : List String) :
    (env.appended name values s).scopes.get? env.scope (.read name) =
      some (Lists.append (env.text s name) values) :=
  Store.get?_set_self h _ _

theorem exists_scope_appended (h : s.scopes.scopes[env.scope]? = some scope) (name : String)
    (values : List String) :
    ∃ scope', (env.appended name values s).scopes.scopes[env.scope]? = some scope' :=
  Store.exists_of_get? (get?_appended h name values)

/-- Calls of `lappend` in turn leave what one call with all their values would leave. -/
theorem exists_returns_lappends (node : Node) (name : String) {scope : Scope}
    (h : s.scopes.scopes[env.scope]? = some scope) (calls : List (List String)) :
    ∃ outcomes t,
      (calls.mapM fun values => env.perform .lappend node (name :: values)).Returns s outcomes t ∧
        env.text t name = Lists.append (env.text s name) calls.flatten ∧
        (calls ≠ [] ∨ (s.scopes.get? env.scope (.read name)).isSome →
          (t.scopes.get? env.scope (.read name)).isSome) := by
  induction calls generalizing s scope with
  | nil => exact ⟨[], s, rfl, rfl, fun hset => hset.resolve_left (absurd rfl)⟩
  | cons values calls ih =>
    obtain ⟨outcome, hcall⟩ := returns_lappend env node name values s
    obtain ⟨scope', hscope⟩ := exists_scope_appended h name values
    obtain ⟨outcomes, t, hcalls, htext, hset⟩ := ih hscope
    have hget := get?_appended h name values
    refine ⟨outcome :: outcomes, t, ?_, ?_, fun _ => hset (.inr (hget ▸ rfl))⟩
    · rw [List.mapM_cons]
      exact hcall.bind (hcalls.bind (returns_pure _ t))
    · rw [htext, List.flatten_cons, Lists.append_append, text, hget]
      rfl

/-- A list is read in parts at a space behind which no group is open. So after any calls of
`lappend` a variable holds the elements that it held before and then those of the values, one after
the other, however the values are divided among the calls. -/
theorem lappend_adds_elements :
    (∀ a b : String, Closed a → parse (a ++ " " ++ b) = parse a ++ parse b) ∧
    ∀ (env : Env) (node : Node) (name : String) (s : Run) (scope : Scope)
      (calls : List (List String)), s.scopes.scopes[env.scope]? = some scope →
      Closed (env.text s name) → (∀ values ∈ calls, ∀ v ∈ values, Closed v) →
      ∃ outcomes t,
        (calls.mapM fun values => env.perform .lappend node (name :: values)).Returns s outcomes t ∧
          parse (env.text t name) = parse (env.text s name) ++ calls.flatten.flatMap parse ∧
          (calls ≠ [] ∨ (s.scopes.get? env.scope (.read name)).isSome →
            (t.scopes.get? env.scope (.read name)).isSome) := by
  refine ⟨fun a b h => h.parse_append b, ?_⟩
  intro env node name s scope calls hscope hold hnew
  obtain ⟨outcomes, t, hcalls, htext, hset⟩ := exists_returns_lappends node name hscope calls
  have hvalues : ∀ v ∈ calls.flatten, Closed v := by
    intro v hv
    obtain ⟨values, hmem, hv⟩ := List.mem_flatten.1 hv
    exact hnew values hmem v hv
  refine ⟨outcomes, t, hcalls, ?_, hset⟩
  rw [htext]
  exact (Lists.parse_append hold hvalues).2

example : parse ("\x7ba" ++ " " ++ "b\x7d") ≠ parse "\x7ba" ++ parse "b\x7d" := by decide

/-- Three calls, one of them without values, for an element that ends with a bare brace. The values
have a blank at the end, no element at all, and a group within an element. -/
theorem lappend_adds_elements_in_three_calls :
    let env := Setup.env {} 0 0
    let node : Node := ⟨.command, some "lappend", []⟩
    let s := runWith [("g(x)", "{p q} r\x7d")]
    let calls := [["{s t} ", ""], [], ["x{y z}w\x7d"]]
    ∃ outcomes t,
      (calls.mapM fun values => env.perform .lappend node ("g(x)" :: values)).Returns s outcomes t ∧
        parse (env.text t "g(x)") = ["p q", "r\x7d", "s t", "xy z\x7dw"] := by
  intro env node s calls
  have halive : (s.scopes.scopes[env.scope]?).isSome = true := by decide +kernel
  obtain ⟨scope, hscope⟩ := Option.isSome_iff_exists.1 halive
  have htext : env.text s "g(x)" = "{p q} r\x7d" := by decide +kernel
  have hold : Closed (env.text s "g(x)") := by
    rw [htext]
    decide
  have hnew : ∀ values ∈ calls, ∀ v ∈ values, Closed v := by decide
  obtain ⟨outcomes, t, hcalls, hparse, -⟩ :=
    lappend_adds_elements.2 env node "g(x)" s scope calls hscope hold hnew
  refine ⟨outcomes, t, hcalls, ?_⟩
  rw [hparse, htext]
  decide

end Env

end Tickle
