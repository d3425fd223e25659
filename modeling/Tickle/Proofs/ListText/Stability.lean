import Tickle.Proofs.ListText.RoundTrip

/-! # Writing a list that was read

Reading a text, writing the elements and reading them again gives the same elements unless one of
them is not brace-safe. That happens in two ways. A text may end while an inner brace is open. Or a
bare closing brace may stand directly in front of a group that begins with a blank: both are read
into one element, and between braces the element ends at that brace.

A text with balanced braces never ends with an inner brace open, but it may be spliced. -/

namespace Tickle.ListText

open Tickle.Text

namespace Place

/-- Where the character behind `c` stands, if `rest` follows `c`. -/
def next (place : Place) (c : Char) (rest : List Char) : Place :=
  match place with
  | .group opened before =>
    if c = '}' && (0 < opened || rest.head?.all isBlank) then
      match opened with
      | 0 => .bare
      | opened + 1 => .group opened c
    else if c = '{' && isBlank before then .group (opened + 1) c
    else .group opened c
  | _ => if c = '{' then .group 0 c else if isBlank c then .gap else .bare

def inGroup : Place → Bool
  | .group .. => true
  | _ => false

/-- Inner braces open at a place. -/
def opened : Place → Nat
  | .group opened _ => opened
  | _ => 0

/-- The scan of the element that is being read, between braces of its own. -/
def openedAfter : Place → List Char → Option Nat
  | .group opened before, element => ListText.openedAfter opened before element
  | _, element => ListText.openedAfter 0 '{' element

end Place

/-- Inner braces open at the end of a text that is read from a place on. -/
def openAtEnd : Place → List Char → Nat
  | place, [] => place.opened
  | place, c :: rest => openAtEnd (place.next c rest) rest

/-- A group that begins with a blank. -/
def beginsBlankGroup : List Char → Bool
  | '{' :: c :: _ => isBlank c
  | _ => false

/-- Somewhere from a place on, a bare closing brace stands directly in front of a group that begins
with a blank. -/
def spliced : Place → List Char → Bool
  | _, [] => false
  | place, c :: rest =>
    (c == '}' && !place.inGroup && beginsBlankGroup rest) || spliced (place.next c rest) rest

/-! ## Elements that are being read -/

/-- All elements are brace-safe; the first is the one that is being read at a place. -/
def Carried (place : Place) : List (List Char) → Prop
  | [] => False
  | e :: es => place.openedAfter e = some 0 ∧ ∀ e' ∈ es, openedAfter 0 '{' e' = some 0

/-- Of the character before an element, only whether it is blank matters. -/
theorem openedAfter_before {opened : Nat} {before before' : Char} (element : List Char)
    (h : isBlank before = isBlank before') :
    openedAfter opened before element = openedAfter opened before' element := by
  cases element with
  | nil => rfl
  | cons c rest => simp only [openedAfter, h]

theorem carried_gap_iff (elements : List (List Char)) :
    Carried .gap elements ↔ Carried .bare elements := by
  cases elements <;> exact Iff.rfl

theorem carried_break (elements : List (List Char)) (h : elements ≠ []) :
    Carried .bare ([] :: elements) ↔ Carried .bare elements := by
  obtain ⟨e, es, rfl⟩ := List.exists_cons_of_ne_nil h
  simp [Carried, Place.openedAfter, openedAfter]

/-- A group that opens is scanned as between braces of its own. -/
theorem carried_open_iff (elements : List (List Char)) :
    Carried (.group 0 '{') elements ↔ Carried .bare elements := by
  cases elements <;> exact Iff.rfl

theorem isBlank_brace : isBlank '{' = false := by decide

/-- Where a blank or the end follows, a bare element is at its end. -/
theorem elementsFrom_bare_of_blank {rest : List Char} (h : rest.head?.all isBlank = true) :
    ∃ es, elementsFrom isBlank .bare rest = [] :: es := by
  cases rest with
  | nil => exact ⟨[], rfl⟩
  | cons c rest =>
    have hc : isBlank c = true := h
    have hne : c ≠ '{' := by
      rintro rfl
      exact absurd hc (by decide)
    exact ⟨elementsFrom isBlank .gap rest, by simp [elementsFrom, hne, hc]⟩

theorem head_extend (c : Char) (elements : List (List Char)) :
    ∃ e es, extend c elements = (c :: e) :: es := by
  cases elements with
  | nil => exact ⟨[], [], rfl⟩
  | cons e es => exact ⟨e, es, rfl⟩

/-- What is read in a group begins with a blank only if the text does. -/
theorem head_elementsFrom_group {opened : Nat} {before : Char} {rest e : List Char}
    {es : List (List Char)} (h : elementsFrom isBlank (.group opened before) rest = e :: es) :
    e.head?.any isBlank = rest.head?.any isBlank := by
  have hkept : ∀ {c elements}, extend c elements = e :: es → e.head? = some c := by
    intro c elements he
    obtain ⟨e', es', hx⟩ := head_extend c elements
    cases hx.symm.trans he
    rfl
  cases rest with
  | nil =>
    cases h
    rfl
  | cons c rest =>
    simp only [elementsFrom] at h
    split at h
    · rename_i hc
      obtain ⟨rfl, hnext⟩ : c = '}' ∧ _ := by simpa using hc
      cases opened with
      | zero =>
        -- the group ends, and so does the element
        obtain ⟨es', hb⟩ := elementsFrom_bare_of_blank (by simpa using hnext)
        cases hb.symm.trans h
        exact (by decide : isBlank '}' = false).symm
      | succ opened => rw [hkept h]; rfl
    · split at h
      · rw [hkept h]; rfl
      · rw [hkept h]; rfl

/-- What is read bare begins with a blank only where a group does. -/
theorem head_elementsFrom_bare {rest e : List Char} {es : List (List Char)}
    (h : elementsFrom isBlank .bare rest = e :: es) :
    e.head?.any isBlank = beginsBlankGroup rest := by
  cases rest with
  | nil =>
    cases h
    rfl
  | cons c rest =>
    simp only [elementsFrom] at h
    split at h
    · rename_i hc
      subst hc
      rw [head_elementsFrom_group h]
      cases rest <;> rfl
    · rename_i hc
      have hplain : beginsBlankGroup (c :: rest) = false := by
        unfold beginsBlankGroup
        split
        · rename_i heq
          exact absurd (List.cons.inj heq).1 hc
        · rfl
      rw [hplain]
      split at h
      · cases h
        rfl
      · rename_i hb
        obtain ⟨e', es', hx⟩ := head_extend c (elementsFrom isBlank .bare rest)
        cases hx.symm.trans h
        simpa using hb

/-! ## One character -/

theorem carried_extend_bare {c : Char} (rest : List Char) (hb : isBlank c = false) (hc : c ≠ '{') :
    Carried .bare (extend c (elementsFrom isBlank .bare rest)) ↔
      (c == '}' && beginsBlankGroup rest) = false ∧
        Carried .bare (elementsFrom isBlank .bare rest) := by
  obtain ⟨e, es, he⟩ := List.exists_cons_of_ne_nil (elementsFrom_ne_nil isBlank .bare rest)
  have hscan : openedAfter 0 c e = openedAfter 0 '{' e :=
    openedAfter_before e (hb.trans isBlank_brace.symm)
  rw [he, extend]
  simp only [Carried, Place.openedAfter, openedAfter, head_elementsFrom_bare he, hc, hscan]
  by_cases hclose : c = '}' <;> by_cases hg : beginsBlankGroup rest = true <;> simp [hclose, hg]

/-- The character closes the group in which it stands. -/
def closesGroup (opened : Nat) (c : Char) (rest : List Char) : Bool :=
  c == '}' && opened == 0 && rest.head?.all isBlank

theorem elementsFrom_next_group {opened : Nat} {before c : Char} {rest : List Char}
    (h : closesGroup opened c rest = false) :
    elementsFrom isBlank (.group opened before) (c :: rest) =
      extend c (elementsFrom isBlank ((Place.group opened before).next c rest) rest) := by
  simp only [elementsFrom, Place.next]
  split
  · cases opened with
    | zero => simp_all [closesGroup]
    | succ opened => rfl
  · split <;> rfl

/-- A character that stays in its group is scanned as it is between braces of its own. -/
theorem openedAfter_next_group {opened : Nat} {before c : Char} {rest e : List Char}
    {es : List (List Char)} (h : closesGroup opened c rest = false)
    (he : elementsFrom isBlank ((Place.group opened before).next c rest) rest = e :: es) :
    openedAfter opened before (c :: e) =
      ((Place.group opened before).next c rest).openedAfter e := by
  cases opened with
  | succ opened =>
    simp only [openedAfter, Place.next, Nat.zero_lt_succ, decide_true, Bool.true_or, Bool.and_true]
    split
    · rfl
    · split <;> rfl
  | zero =>
    have hkept : (c = '}' && (0 < 0 || rest.head?.all isBlank)) = false := by
      simpa [closesGroup] using h
    simp only [Place.next, hkept, Bool.false_eq_true, if_false] at he ⊢
    have hscan : (c = '}' && (0 < 0 || e.head?.any isBlank)) = false := by
      have hhead : e.head?.any isBlank = rest.head?.any isBlank := by
        split at he <;> exact head_elementsFrom_group he
      rw [hhead]
      cases rest with
      | nil => simp
      | cons d rest => exact hkept
    simp only [openedAfter, hscan, Bool.false_eq_true, if_false]
    split <;> rfl

/-- The elements are brace-safe from a character on exactly if no splice begins at the character and
they are brace-safe behind it. -/
theorem carried_cons_iff (place : Place) (c : Char) (rest : List Char) :
    Carried place (elementsFrom isBlank place (c :: rest)) ↔
      (c == '}' && !place.inGroup && beginsBlankGroup rest) = false ∧
        Carried (place.next c rest) (elementsFrom isBlank (place.next c rest) rest) := by
  cases place with
  | bare =>
    simp only [Place.inGroup, Bool.not_false, Bool.and_true]
    by_cases hc : c = '{'
    · simp [hc, elementsFrom, Place.next, carried_open_iff]
    · by_cases hb : isBlank c = true
      · have hne : c ≠ '}' := by
          rintro rfl
          exact absurd hb (by decide)
        simp [hc, hb, hne, elementsFrom, Place.next, carried_gap_iff,
          carried_break _ (elementsFrom_ne_nil isBlank .gap rest)]
      · have hb : isBlank c = false := by simpa using hb
        simpa [hc, hb, elementsFrom, Place.next] using carried_extend_bare rest hb hc
  | gap =>
    simp only [Place.inGroup, Bool.not_false, Bool.and_true, carried_gap_iff]
    by_cases hb : isBlank c = true
    · have hc : c ≠ '{' := by
        rintro rfl
        exact absurd hb (by decide)
      have hne : c ≠ '}' := by
        rintro rfl
        exact absurd hb (by decide)
      simp [hc, hb, hne, elementsFrom, Place.next, carried_gap_iff]
    · have hb : isBlank c = false := by simpa using hb
      by_cases hc : c = '{'
      · subst hc
        simp [hb, elementsFrom, Place.next, carried_open_iff]
      · simpa [hc, hb, elementsFrom, Place.next] using carried_extend_bare rest hb hc
  | group opened before =>
    simp only [Place.inGroup, Bool.not_true, Bool.and_false, Bool.false_and, true_and]
    cases hclose : closesGroup opened c rest with
    | true =>
      obtain ⟨⟨rfl, rfl⟩, hb⟩ : (c = '}' ∧ opened = 0) ∧ rest.head?.all isBlank = true := by
        simpa [closesGroup] using hclose
      obtain ⟨es, he⟩ := elementsFrom_bare_of_blank hb
      simp [elementsFrom, Place.next, hb, he, Carried, Place.openedAfter, openedAfter]
    | false =>
      obtain ⟨e, es, he⟩ := List.exists_cons_of_ne_nil
        (elementsFrom_ne_nil isBlank ((Place.group opened before).next c rest) rest)
      have hscan := openedAfter_next_group hclose he
      rw [elementsFrom_next_group hclose, he]
      simp only [extend, Carried, ← hscan]
      rfl

/-! ## A whole text -/

theorem carried_iff (place : Place) (cs : List Char) :
    Carried place (elementsFrom isBlank place cs) ↔
      spliced place cs = false ∧ openAtEnd place cs = 0 := by
  induction cs generalizing place with
  | nil =>
    cases place <;>
      simp [elementsFrom, Carried, Place.openedAfter, openedAfter, spliced, openAtEnd, Place.opened]
  | cons c rest ih =>
    rw [carried_cons_iff, ih, spliced, openAtEnd, Bool.or_eq_false_iff, and_assoc]

/-- Reading, writing and reading again changes nothing exactly if the text is not spliced and does
not end inside an inner group. -/
theorem parse_format_parse_iff (text : String) :
    parse (format (parse text)) = parse text ↔
      spliced .bare (trim isBlank text.toList) = false ∧
        openAtEnd .bare (trim isBlank text.toList) = 0 := by
  rw [parse_format_iff, ← carried_iff]
  have hsafe : ∀ e : List Char, BraceSafe (String.ofList e) ↔ openedAfter 0 '{' e = some 0 := by
    intro e
    rw [BraceSafe, String.toList_ofList]
  cases hcs : trim isBlank text.toList with
  | nil => simp [parse, hcs, elements, elementsFrom, Carried, Place.openedAfter, openedAfter]
  | cons c rest =>
    obtain ⟨e, es, he⟩ := List.exists_cons_of_ne_nil
      (elementsFrom_ne_nil isBlank .bare (c :: rest))
    simp [parse, hcs, elements, he, hsafe, Carried, Place.openedAfter]

/-! ## Balanced texts -/

/-- As long as inner braces are open, a character opens or closes at most what it is. -/
theorem Place.opened_next_le {place : Place} {c : Char} {rest : List Char}
    (h : (place.next c rest).opened ≠ 0) :
    (place.next c rest).opened + [c].count '}' ≤ place.opened + [c].count '{' := by
  cases place with
  | bare | gap =>
    simp only [next] at h
    split at h
    · exact absurd rfl h
    · split at h <;> exact absurd rfl h
  | group opened before =>
    simp only [next] at h ⊢
    split at h
    · rename_i hc
      obtain ⟨rfl, -⟩ : c = '}' ∧ _ := by simpa using hc
      rw [if_pos hc]
      cases opened with
      | zero => exact absurd rfl h
      | succ opened => simp [Place.opened]
    · rename_i hc
      rw [if_neg hc]
      split at h
      · rename_i ho
        obtain ⟨rfl, -⟩ : c = '{' ∧ _ := by simpa using ho
        rw [if_pos ho]
        simp [Place.opened]
      · rename_i ho
        rw [if_neg ho]
        have hne : c ≠ '}' := by
          rintro rfl
          have : opened ≠ 0 := h
          simp at hc
          omega
        simp [Place.opened, List.count_singleton, hne]

/-- If no end of the text opens more than it closes, no more inner braces are open at its end than
there were over and above what the text opens. -/
theorem openAtEnd_le {place : Place} {cs : List Char}
    (hend : ∀ back, back <:+ cs → back.count '{' ≤ back.count '}') :
    openAtEnd place cs = 0 ∨
      openAtEnd place cs + cs.count '}' ≤ place.opened + cs.count '{' := by
  induction cs generalizing place with
  | nil => exact .inr (Nat.le_refl _)
  | cons c rest ih =>
    have hrest := hend rest (List.suffix_cons c rest)
    have hle : openAtEnd (place.next c rest) rest = 0 ∨ openAtEnd (place.next c rest) rest +
        rest.count '}' ≤ (place.next c rest).opened + rest.count '{' :=
      ih fun back hb => hend back (hb.trans (List.suffix_cons c rest))
    rw [openAtEnd]
    by_cases hnext : (place.next c rest).opened = 0
    · left; omega
    · have hstep := Place.opened_next_le hnext
      have hopen : (c :: rest).count '{' = [c].count '{' + rest.count '{' := by
        rw [← List.count_append]; rfl
      have hclose : (c :: rest).count '}' = [c].count '}' + rest.count '}' := by
        rw [← List.count_append]; rfl
      omega

/-- What trimming leaves is the text without blanks at both ends. -/
theorem exists_trim_append (cs : List Char) :
    ∃ front back, cs = front ++ trim isBlank cs ++ back ∧ (∀ c ∈ front, isBlank c = true) ∧
      ∀ c ∈ back, isBlank c = true := by
  refine ⟨cs.takeWhile isBlank, ((trimStart isBlank cs).reverse.takeWhile isBlank).reverse, ?_,
    fun c hc => List.all_eq_true.1 List.all_takeWhile c hc, ?_⟩
  · have hend : trim isBlank cs ++ ((trimStart isBlank cs).reverse.takeWhile isBlank).reverse =
        trimStart isBlank cs := by
      rw [trim, trimEnd, ← List.reverse_append, List.takeWhile_append_dropWhile,
        List.reverse_reverse]
    rw [List.append_assoc, hend, trimStart, List.takeWhile_append_dropWhile]
  · intro c hc
    exact List.all_eq_true.1 List.all_takeWhile c (List.mem_reverse.1 hc)

/-- A balanced text does not end inside an inner group. -/
theorem Balanced.openAtEnd_eq {text : String} (h : Balanced text) :
    openAtEnd .bare (trim isBlank text.toList) = 0 := by
  obtain ⟨front, back, htext, -, hback⟩ := exists_trim_append text.toList
  have hnone : ∀ c, isBlank c = false → back.count c = 0 := by
    intro c hc
    refine List.count_eq_zero.2 fun hmem => ?_
    rw [hback c hmem] at hc
    cases hc
  have hend : ∀ tail, tail <:+ trim isBlank text.toList → tail.count '{' ≤ tail.count '}' := by
    rintro tail ⟨start, hs⟩
    have hsuffix : tail ++ back <:+ text.toList := by
      refine ⟨front ++ start, ?_⟩
      rw [htext, ← hs]
      simp
    have hle := h.count_le_of_suffix hsuffix
    rw [List.count_append, List.count_append, hnone '{' (by decide), hnone '}' (by decide)] at hle
    exact hle
  have hwhole := hend _ List.suffix_rfl
  rcases @openAtEnd_le .bare _ hend with hz | hle
  · exact hz
  · simp only [Place.opened] at hle
    omega

/-- Reading a balanced text, writing the elements and reading them again gives the same elements
exactly if no bare closing brace stands directly in front of a group that begins with a blank. -/
theorem parse_format_parse_of_balanced (text : String) (h : Balanced text) :
    parse (format (parse text)) = parse text ↔
      spliced .bare (trim isBlank text.toList) = false := by
  rw [parse_format_parse_iff, and_iff_left h.openAtEnd_eq]

/-- A group that closes early, a bare part in front of a group and a group that goes on behind its
brace are read in odd ways, and then in the same ways again. -/
theorem parse_format_parse_odd_groups :
    Balanced "{{a} b} x{ {y} z} {c}d" ∧
      parse "{{a} b} x{ {y} z} {c}d" = ["\x7ba", "b\x7d", "x {y} z", "c\x7dd"] ∧
      parse (format (parse "{{a} b} x{ {y} z} {c}d")) = parse "{{a} b} x{ {y} z} {c}d" := by
  have hb : Balanced "{{a} b} x{ {y} z} {c}d" := by decide
  exact ⟨hb, by decide, (parse_format_parse_of_balanced _ hb).2 (by decide)⟩

/-- The braces are balanced, but the first group closes early: `b}` is bare and is read into one
element with the group behind it. Written in braces, that element ends at its own brace. -/
theorem parse_format_parse_spliced :
    Balanced "{{a} b}{ c}" ∧
      parse (format (parse "{{a} b}{ c}")) ≠ parse "{{a} b}{ c}" ∧
      (parse "{{a} b}{ c}").length = 2 ∧
      (parse (format (parse "{{a} b}{ c}"))).length = 3 := by
  decide

end Tickle.ListText
