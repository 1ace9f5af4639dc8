import Tincan.Library.Text
import Mathlib.Data.List.TakeWhile

namespace Tincan.Library.Tokens

open Tincan.Library.Text

/-- The maximal whitespace-free pieces of a text, in order. -/
def tokens (s : Bytes) : List Bytes := (s.splitOnP isSpace).filter (fun w => !w.isEmpty)

def IsToken (w : Bytes) : Prop := w ≠ [] ∧ ∀ b ∈ w, isSpace b = false

theorem tokens_nil : tokens [] = [] := rfl

theorem tokens_space_cons {b : Byte} (hb : isSpace b = true) (s : Bytes) :
    tokens (b :: s) = tokens s := by
  simp [tokens, List.splitOnP_cons_eq_if_modifyHead, hb]

theorem tokens_dropWhile (s : Bytes) : tokens (s.dropWhile isSpace) = tokens s := by
  induction s with
  | nil => rfl
  | cons b s ih =>
    cases hb : isSpace b with
    | true => rw [List.dropWhile_cons_of_pos hb, ih, tokens_space_cons hb]
    | false => rw [List.dropWhile_cons_of_neg (by simp [hb])]

theorem tokens_append_space {b : Byte} (hb : isSpace b = true) (s t : Bytes) :
    tokens (s ++ b :: t) = tokens s ++ tokens t := by
  simp [tokens, List.splitOnP_append_cons s t hb]

theorem tokens_token {w : Bytes} (hw : IsToken w) : tokens w = [w] := by
  have hne : w.isEmpty = false := by simpa using hw.1
  simp [tokens, List.splitOnP_eq_singleton hw.2, hne]

theorem tokens_token_append {w rest : Bytes} (hw : IsToken w)
    (hrest : ∀ b s, rest = b :: s → isSpace b = true) : tokens (w ++ rest) = w :: tokens rest := by
  cases rest with
  | nil => simpa [tokens_nil] using tokens_token hw
  | cons b s =>
    have hb : isSpace b = true := hrest b s rfl
    rw [tokens_append_space hb, tokens_token hw, tokens_space_cons hb]
    rfl

theorem takeWhile_isToken {b : Byte} {s : Bytes} (hb : isSpace b = false) :
    IsToken ((b :: s).takeWhile (fun c => !isSpace c)) := by
  refine ⟨?_, fun c hc => by simpa using List.mem_takeWhile_imp hc⟩
  simp [hb]

theorem dropWhile_head {p : Byte → Bool} {s t : Bytes} {b : Byte}
    (h : s.dropWhile p = b :: t) : p b = false := by
  have hd := List.head_dropWhile_not p (l := s) (by rw [h]; simp)
  simpa [h] using hd

theorem tokens_head {b : Byte} {s : Bytes} (hb : isSpace b = false) :
    tokens (b :: s) = (b :: s).takeWhile (fun c => !isSpace c) ::
      tokens ((b :: s).dropWhile (fun c => !isSpace c)) := by
  have hrest : ∀ c t, (b :: s).dropWhile (fun c => !isSpace c) = c :: t → isSpace c = true := by
    intro c t ht
    simpa using dropWhile_head ht
  have h := tokens_token_append (takeWhile_isToken (s := s) hb) hrest
  rwa [List.takeWhile_append_dropWhile] at h

def IsGap (w : Bytes) : Prop := w ≠ [] ∧ ∀ b ∈ w, isSpace b = true

theorem tokens_spaces_append {w : Bytes} (hw : ∀ b ∈ w, isSpace b = true) (s : Bytes) :
    tokens (w ++ s) = tokens s := by
  induction w with
  | nil => rfl
  | cons b w ih =>
    rw [List.cons_append, tokens_space_cons (hw b List.mem_cons_self)]
    exact ih (fun c hc => hw c (List.mem_cons_of_mem b hc))

theorem tokens_append_gap {w : Bytes} (hw : IsGap w) (s t : Bytes) :
    tokens (s ++ w ++ t) = tokens s ++ tokens t := by
  obtain ⟨hne, hspaces⟩ := hw
  obtain ⟨b, w, rfl⟩ := List.exists_cons_of_ne_nil hne
  rw [List.append_assoc, List.cons_append, tokens_append_space (hspaces b List.mem_cons_self),
    tokens_spaces_append (fun c hc => hspaces c (List.mem_cons_of_mem b hc))]

theorem tokens_append_spaces {w : Bytes} (hw : ∀ b ∈ w, isSpace b = true) (s : Bytes) :
    tokens (s ++ w) = tokens s := by
  by_cases hne : w = []
  · rw [hne, List.append_nil]
  · have h := tokens_append_gap ⟨hne, hw⟩ s []
    rwa [List.append_nil, tokens_nil, List.append_nil] at h

theorem tokens_eq_cons {s w : Bytes} {ws : List Bytes} (h : tokens s = w :: ws) :
    ∃ gap rest, s = gap ++ w ++ rest ∧ (∀ b ∈ gap, isSpace b = true) ∧ IsToken w ∧
      (∀ b t, rest = b :: t → isSpace b = true) ∧ tokens rest = ws := by
  have hspaces : ∀ b ∈ s.takeWhile isSpace, isSpace b = true := fun b hb => List.mem_takeWhile_imp hb
  have hsplit : s.takeWhile isSpace ++ s.dropWhile isSpace = s := List.takeWhile_append_dropWhile
  rw [← tokens_dropWhile] at h
  cases hr : s.dropWhile isSpace with
  | nil =>
    rw [hr, tokens_nil] at h
    cases h
  | cons b r =>
    have hb : isSpace b = false := dropWhile_head hr
    rw [hr, tokens_head hb, List.cons.injEq] at h
    obtain ⟨rfl, hws⟩ := h
    refine ⟨s.takeWhile isSpace, _, ?_, hspaces, takeWhile_isToken hb, ?_, hws⟩
    · rw [List.append_assoc, List.takeWhile_append_dropWhile, ← hr, hsplit]
    · intro c t ht
      simpa using dropWhile_head ht

/-- The tokens are the maximal pieces without whitespace: on each side of one
the text ends or there is whitespace. -/
theorem mem_tokens_iff {s w : Bytes} : w ∈ tokens s ↔ IsToken w ∧ ∃ before after,
    s = before ++ w ++ after ∧ (∀ b t, before = t ++ [b] → isSpace b = true) ∧
      ∀ b t, after = b :: t → isSpace b = true := by
  constructor
  · intro h
    generalize hs : tokens s = ws at h
    induction ws generalizing s with
    | nil => cases h
    | cons v ws ih =>
      obtain ⟨gap, rest, rfl, hgap, hv, hrest, hws⟩ := tokens_eq_cons hs
      obtain rfl | hw := List.mem_cons.mp h
      · exact ⟨hv, gap, rest, rfl, fun b t hb => hgap b (by simp [hb]), hrest⟩
      · obtain ⟨htoken, before, after, rfl, hbefore, hafter⟩ := ih hws hw
        refine ⟨htoken, gap ++ v ++ before, after, by simp, ?_, hafter⟩
        intro b t hb
        obtain rfl | ⟨before, c, rfl⟩ := List.eq_nil_or_concat' before
        -- The piece would go on to the left, but there is whitespace.
        · obtain ⟨c, w, rfl⟩ := List.exists_cons_of_ne_nil htoken.1
          have hspace := hrest c (w ++ after) rfl
          rw [htoken.2 c List.mem_cons_self] at hspace
          cases hspace
        · rw [← List.append_assoc] at hb
          exact hbefore b before (by rw [List.append_inj_right' hb rfl])
  · rintro ⟨hw, before, after, rfl, hbefore, hafter⟩
    have hhere : w ∈ tokens (w ++ after) := by
      rw [tokens_token_append hw hafter]
      exact List.mem_cons_self
    obtain rfl | ⟨before, b, rfl⟩ := List.eq_nil_or_concat' before
    · exact hhere
    · rw [List.append_assoc, List.append_assoc, List.singleton_append,
        tokens_append_space (hbefore b before rfl)]
      exact List.mem_append_right _ hhere

theorem tokens_intercalate {b : Byte} (hb : isSpace b = true) (ws : List Bytes)
    (hws : ∀ w ∈ ws, IsToken w) : tokens ([b].intercalate ws) = ws := by
  induction ws with
  | nil => rfl
  | cons w ws ih =>
    have hw : IsToken w := hws w (by simp)
    cases ws with
    | nil => simpa [List.intercalate] using tokens_token hw
    | cons v ws =>
      have hrest := ih (fun u hu => hws u (List.mem_cons_of_mem w hu))
      rw [List.intercalate_cons_cons, List.append_assoc, List.singleton_append,
        tokens_append_space hb, tokens_token hw, hrest]
      rfl

/-- A string stream: what is left to read, and the two state bits that
extraction sets. The end-of-file bit is only ever set on a drained stream. -/
structure IStream where
  rest : Bytes
  eof : Bool
  fail : Bool
  drained : eof = true → rest = []

def IStream.ofBytes (s : Bytes) : IStream := ⟨s, false, false, by simp⟩

/-- Extraction of a word: leading whitespace is skipped, and a stream with
nothing more to read sets both bits and yields the empty word. -/
def IStream.readWord (s : IStream) : Bytes × IStream :=
  if s.eof || s.fail then ([], { s with fail := true })
  else match s.rest.dropWhile isSpace with
    | [] => ([], ⟨[], true, true, fun _ => rfl⟩)
    | b :: r =>
      let rest := (b :: r).dropWhile (fun c => !isSpace c)
      ((b :: r).takeWhile (fun c => !isSpace c), ⟨rest, rest.isEmpty, false, by simp⟩)

theorem readWord_end {s : IStream} (h : tokens s.rest = []) :
    s.readWord.1 = [] ∧ s.readWord.2.fail = true := by
  unfold IStream.readWord
  split
  · exact ⟨rfl, rfl⟩
  · cases hr : s.rest.dropWhile isSpace with
    | nil => exact ⟨rfl, rfl⟩
    | cons b r =>
      have hb : isSpace b = false := dropWhile_head hr
      rw [← tokens_dropWhile, hr, tokens_head hb] at h
      simp at h

theorem readWord_token {s : IStream} {w : Bytes} {ws : List Bytes} (hf : s.fail = false)
    (h : tokens s.rest = w :: ws) :
    s.readWord.1 = w ∧ s.readWord.2.fail = false ∧ tokens s.readWord.2.rest = ws := by
  have he : s.eof = false := by
    cases heof : s.eof with
    | false => rfl
    | true => simp [s.drained heof, tokens_nil] at h
  cases hr : s.rest.dropWhile isSpace with
  | nil =>
    rw [← tokens_dropWhile, hr, tokens_nil] at h
    cases h
  | cons b r =>
    have hb : isSpace b = false := dropWhile_head hr
    rw [← tokens_dropWhile, hr, tokens_head hb, List.cons.injEq] at h
    have hread : s.readWord = ((b :: r).takeWhile (fun c => !isSpace c),
        ⟨(b :: r).dropWhile (fun c => !isSpace c),
          ((b :: r).dropWhile (fun c => !isSpace c)).isEmpty, false, by simp⟩) := by
      simp [IStream.readWord, he, hf, hr]
    rw [hread]
    exact ⟨h.1, rfl, h.2⟩

theorem readWord_shrinks {s : IStream} (h : s.readWord.2.fail = false) :
    s.readWord.2.rest.length < s.rest.length := by
  unfold IStream.readWord at h ⊢
  split
  · next hbad => simp [hbad] at h
  · next hgood =>
    rw [if_neg hgood] at h
    have hle := List.length_dropWhile_le isSpace s.rest
    cases hr : s.rest.dropWhile isSpace with
    | nil => simp [hr] at h
    | cons b r =>
      have hb : isSpace b = false := dropWhile_head hr
      have hle' := List.length_dropWhile_le (fun c => !isSpace c) r
      rw [hr, List.length_cons] at hle
      simp only [List.dropWhile_cons, hb, Bool.not_false, ↓reduceIte]
      omega

end Tincan.Library.Tokens
