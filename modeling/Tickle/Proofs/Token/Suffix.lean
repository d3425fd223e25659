import Tickle.Token.Expression
import Tickle.Token.Script

/-! # Readers go forward

A reader leaves an end of the text that it was given; the name that it reads stands in the text, the
braces around it apart. -/

namespace Tickle

namespace Reader

theorem skipContinuation_suffix (cs : List Char) : skipContinuation cs <:+ cs :=
  (List.dropWhile_suffix _).trans (List.drop_suffix 1 cs)

theorem readEscaped_suffix (cs : List Char) : (readEscaped cs).2 <:+ cs := by
  unfold readEscaped
  split
  · exact List.suffix_rfl
  · rename_i c rest
    have hrest : rest <:+ c :: rest := List.suffix_cons c rest
    split
    · exact hrest
    · split
      · exact List.drop_suffix _ _
      · dsimp only
        split
        · split
          · exact hrest
          · exact (List.dropWhile_suffix _).trans hrest
        · split
          · split
            · exact hrest
            · exact (List.drop_suffix _ _).trans hrest
          · exact hrest

theorem readPlain_suffix (stop : Char → Bool) (cs : List Char) : (readPlain stop cs).2 <:+ cs := by
  show (readPoints stop cs).2 <:+ cs
  fun_induction readPoints stop cs with
  | case1 => exact List.suffix_rfl
  | case2 => exact List.suffix_rfl
  | case3 c rest _ _ ih => exact ih.trans (skipContinuation_suffix _)
  | case4 rest _ _ ih =>
    exact (ih.trans (readEscaped_suffix rest)).trans (List.suffix_cons _ rest)
  | case5 c rest _ _ _ ih => exact ih.trans (List.suffix_cons c rest)

/-- A name with an index is kept as written. -/
theorem takeWhile_append_readIndex {cs rest : List Char}
    (h : cs.dropWhile Text.isNameChar = '(' :: rest) :
    cs.takeWhile Text.isNameChar ++ (readIndex 0 ('(' :: rest)).1 ++ (readIndex 0 ('(' :: rest)).2 =
      cs := by
  rw [List.append_assoc, readIndex_append, ← h, List.takeWhile_append_dropWhile]

/-- A name is written in the text, the braces around it apart. -/
theorem readName_sublist (cs : List Char) : (readName cs).1.Sublist cs := by
  unfold readName
  split
  · rename_i rest
    exact (List.takeWhile_sublist _).trans (List.sublist_cons_self _ rest)
  · dsimp only
    split
    · rename_i rest heq
      exact List.IsPrefix.sublist ⟨_, takeWhile_append_readIndex heq⟩
    · exact List.takeWhile_sublist _

theorem readName_suffix (cs : List Char) : (readName cs).2 <:+ cs := by
  unfold readName
  split
  · rename_i rest
    exact ((List.drop_suffix _ _).trans (List.dropWhile_suffix _)).trans (List.suffix_cons _ rest)
  · dsimp only
    split
    · rename_i rest heq
      exact ⟨_, takeWhile_append_readIndex heq⟩
    · exact List.dropWhile_suffix _

theorem skipContinuations_suffix (cs : List Char) : skipContinuations cs <:+ cs := by
  fun_induction skipContinuations cs with
  | case1 cs _ ih => exact ih.trans (skipContinuation_suffix cs)
  | case2 => exact List.suffix_rfl

theorem readBraced_suffix (eliding : Bool) (opened : Nat) (cs : List Char) :
    (readBraced eliding opened cs).2 <:+ cs := by
  fun_induction readBraced eliding opened cs with
  | case1 | case6 => exact List.suffix_rfl
  | case2 _ _ c rest _ ih | case3 _ _ c rest _ ih =>
    exact ih.trans ((List.suffix_cons c rest).trans (List.suffix_cons _ _))
  | case4 _ _ c rest _ _ ih => exact ih.trans (List.suffix_cons c rest)
  | case5 _ _ rest _ _ ih => exact ih.trans (List.suffix_cons _ rest)
  | case7 _ _ rest _ _ _ _ ih => exact ih.trans (List.suffix_cons _ rest)
  | case8 _ _ c rest _ _ _ _ ih => exact ih.trans (List.suffix_cons c rest)

theorem readExponent_suffix (cs : List Char) : (readExponent cs).2 <:+ cs := by
  unfold readExponent
  split
  · exact (List.dropWhile_suffix _).trans (List.suffix_cons _ _)
  · exact (List.dropWhile_suffix _).trans (List.suffix_cons _ _)
  · exact List.dropWhile_suffix _

theorem readDecimal_suffix (seenPoint : Bool) (cs : List Char) :
    (readDecimal seenPoint cs).2 <:+ cs := by
  fun_induction readDecimal seenPoint cs with
  | case1 | case5 => exact List.suffix_rfl
  | case2 _ c rest _ ih => exact ih.trans (List.suffix_cons c rest)
  | case3 _ c rest _ _ ih => exact ih.trans (List.suffix_cons c rest)
  | case4 _ c rest => exact (readExponent_suffix rest).trans (List.suffix_cons c rest)

theorem readNumber_suffix (cs : List Char) : (readNumber cs).2 <:+ cs := by
  unfold readNumber
  split
  · rename_i c rest
    have hrest : c :: rest <:+ '0' :: c :: rest := List.suffix_cons '0' (c :: rest)
    split
    · exact (List.dropWhile_suffix _).trans hrest
    · split
      · exact (List.dropWhile_suffix _).trans ((List.suffix_cons c rest).trans hrest)
      · exact readDecimal_suffix false _
  · exact readDecimal_suffix false _

end Reader

namespace Token.Script

open Tickle.Reader

theorem Region.read_suffix (region : Region) (cs : List Char) : (region.read cs).2 <:+ cs := by
  cases region with
  | braces => exact readBraced_suffix false 0 cs
  | brackets => exact ⟨_, readBracketed_append 0 0 cs⟩
  | quotes => exact ⟨_, readQuoted_append 0 cs⟩

theorem readWord_suffix (wordStart commandStart : Bool) (c : Char) (rest : List Char) :
    (readWord wordStart commandStart c rest).rest <:+ c :: rest := by
  have hrest : rest <:+ c :: rest := List.suffix_cons c rest
  unfold readWord
  repeat' split
  · exact List.dropWhile_suffix _
  · exact hrest
  · exact List.dropWhile_suffix _
  · exact (List.dropWhile_suffix _).trans hrest
  · exact hrest
  · exact hrest
  · exact hrest
  · exact hrest
  · exact readPlain_suffix _ _

end Token.Script

namespace Token.Expression

open Tickle.Reader

theorem Region.read_suffix (region : Region) (cs : List Char) : (region.read cs).2 <:+ cs := by
  cases region with
  | quotes => exact List.dropWhile_suffix _
  | braces => exact readBraced_suffix false 0 cs

theorem operator?_suffix {c : Char} {cs : List Char} {kind : Kind} {text rest : List Char}
    (h : operator? c cs = some (kind, text, rest)) : rest <:+ c :: cs := by
  unfold operator? at h
  split at h
  · cases h
    exact (List.drop_suffix 1 cs).trans (List.suffix_cons c cs)
  · obtain ⟨_, -, hkind⟩ := Option.map_eq_some_iff.1 h
    cases hkind
    exact List.suffix_cons c cs

theorem readToken_suffix {c : Char} {rest : List Char} {step : Step Mode}
    (h : readToken c rest = .ok step) : step.rest <:+ c :: rest := by
  have hrest : rest <:+ c :: rest := List.suffix_cons c rest
  unfold readToken at h
  split at h
  · dsimp only at h
    split at h
    · cases h
      exact readNumber_suffix (c :: rest)
    · cases h
  · split at h
    · cases h
      exact hrest
    · split at h
      · cases h
        exact hrest
      · split at h
        · cases h
          exact List.dropWhile_suffix _
        · split at h
          · rename_i hoperator
            cases h
            exact operator?_suffix hoperator
          · cases h
            exact hrest

end Token.Expression

end Tickle
