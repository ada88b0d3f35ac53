import Mathlib.Data.List.Pairwise
import Mathlib.Data.Set.Subsingleton
import ScriptLang.Proofs.Token.Lexing

/-!
# The order of the recognisers

Of several finds that are equally long it is the first that counts, so which token a text begins
with could depend on the order in which the recognisers are asked. It does not, because no two of
them ever find equally much: two symbols of the same length are spelled differently, and everything
else is told apart by its first character already.

* `Recogniser.NoTie`, `Recogniser.NeverTie` — recognisers that never find equally much.
* `Recogniser.Opens` — the characters that a recogniser has to find in front.
* `Recogniser.NeverTie.longest?_eq_some` — without ties the longest find is found by one recogniser,
  and the order has no part in it, which is `Recogniser.NeverTie.longest?_perm`.
* `Lexeme.neverTie_recognisers`, `Segment.neverTie_trivia` — there are no ties among the recognisers
  of tokens, nor among those of what stands between tokens.
* `Lexeme.leavesSuffix`, `Segment.leavesSuffix` — whoever finds something gets on in the text.
-/

namespace ScriptLang

namespace Recogniser

variable {α : Type}

/-! ### Ties -/

/-- **Two recognisers never find equally much** in front of the same text. -/
def NoTie (r r' : Recogniser α) : Prop :=
  ∀ ⦃cs m m'⦄, r cs = some m → r' cs = some m' → m.length ≠ m'.length

theorem NoTie.symm {r r' : Recogniser α} (h : r.NoTie r') : r'.NoTie r :=
  fun _ _ _ h_m' h_m h_length => h h_m h_m' h_length.symm

/-- **Recognisers without ties:** no two of them, at different places of the list, ever find equally
much. -/
def NeverTie (rs : List (Recogniser α)) : Prop := rs.Pairwise NoTie

/-- **The recogniser at a place attains the longest match:** it finds something in the text, and
none of the others finds more. -/
def Attains (rs : List (Recogniser α)) (cs : List Char) (i : Fin rs.length) : Prop :=
  ∃ m, rs[i] cs = some m ∧ ∀ r ∈ rs, ∀ m', r cs = some m' → m'.length ≤ m.length

namespace NeverTie

variable {rs rs' : List (Recogniser α)}

/-- Equally long finds are one find. -/
private theorem find_unique (h : NeverTie rs) {r r' : Recogniser α} (h_r : r ∈ rs) (h_r' : r' ∈ rs)
    {cs : List Char} {m m' : Found α} (h_m : r cs = some m) (h_m' : r' cs = some m')
    (h_length : m.length = m'.length) : m = m' := by
  have : Std.Symm (NoTie (α := α)) := ⟨fun _ _ => NoTie.symm⟩
  by_cases h_same : r = r'
  · subst h_same
    exact Option.some.inj (h_m.symm.trans h_m')
  · exact absurd h_length (List.Pairwise.forall h h_r h_r' h_same h_m h_m')

/-- **Without ties at most one recogniser attains the longest match.** -/
theorem subsingleton_attains (h : NeverTie rs) (cs : List Char) :
    {i | Attains rs cs i}.Subsingleton := by
  rintro i ⟨m, h_m, h_longest⟩ j ⟨m', h_m', h_longest'⟩
  -- each of the two finds is at least as long as the other one
  have h_length : m.length = m'.length :=
    Nat.le_antisymm (h_longest' _ (List.getElem_mem i.isLt) m h_m)
      (h_longest _ (List.getElem_mem j.isLt) m' h_m')
  have h_places := List.pairwise_iff_getElem.1 h
  rcases Nat.lt_trichotomy i j with h_lt | h_eq | h_gt
  · exact absurd h_length (h_places i j i.isLt j.isLt h_lt h_m h_m')
  · exact Fin.ext h_eq
  · exact absurd h_length.symm (h_places j i j.isLt i.isLt h_gt h_m' h_m)

/-- **Without ties the longest find is whatever no recogniser exceeds,** wherever in the list the
recogniser stands that finds it. -/
theorem longest?_eq_some (h : NeverTie rs) {cs : List Char} {m : Found α} :
    longest? rs cs = some m ↔
      (∃ r ∈ rs, r cs = some m) ∧ ∀ r ∈ rs, ∀ m', r cs = some m' → m'.length ≤ m.length := by
  constructor
  · intro h_m
    refine ⟨longest?_mem h_m, fun r h_r m' h_m' => ?_⟩
    obtain ⟨m₁, h_m₁, h_le⟩ := le_longest? h_r h_m'
    obtain rfl : m = m₁ := Option.some.inj (h_m.symm.trans h_m₁)
    exact h_le
  · rintro ⟨⟨r, h_r, h_m⟩, h_longest⟩
    obtain ⟨m₁, h_m₁, h_le⟩ := le_longest? h_r h_m
    obtain ⟨r₁, h_r₁, h_found⟩ := longest?_mem h_m₁
    have h_length : m.length = m₁.length := Nat.le_antisymm h_le (h_longest r₁ h_r₁ m₁ h_found)
    rw [h_m₁, h.find_unique h_r h_r₁ h_m h_found h_length]

theorem of_perm (h : NeverTie rs) (perm : rs'.Perm rs) : NeverTie rs' :=
  (List.Perm.pairwise_iff NoTie.symm perm).2 h

/-- **Without ties the order does not matter.** -/
theorem longest?_perm (h : NeverTie rs) (perm : rs'.Perm rs) : longest? rs' = longest? rs := by
  funext cs
  refine Option.ext fun m => ?_
  -- only what is in the list is spoken of on the right-hand sides
  rw [(h.of_perm perm).longest?_eq_some, h.longest?_eq_some]
  simp only [perm.mem_iff]

end NeverTie

/-! ### What has to come first -/

/-- **A recogniser finds something only in front of certain characters.** -/
def Opens (r : Recogniser α) (inClass : Char → Prop) : Prop :=
  ∀ ⦃cs m⦄, r cs = some m → ∃ c ∈ cs.head?, inClass c

/-- Recognisers that need different characters in front never find anything at the same place. -/
theorem Opens.noTie {r r' : Recogniser α} {p q : Char → Prop} (h : r.Opens p) (h' : r'.Opens q)
    (apart : ∀ c, p c → ¬q c) : r.NoTie r' := by
  intro cs m m' h_m h_m'
  obtain ⟨c, h_c, h_p⟩ := h h_m
  obtain ⟨d, h_d, h_q⟩ := h' h_m'
  obtain rfl : c = d := Option.mem_unique h_c h_d
  exact absurd h_q (apart c h_p)

theorem runOf_opens (inClass : Char → Bool) (label : List Char → α) :
    (runOf inClass label).Opens (inClass · = true) := by
  intro cs m h
  obtain ⟨h_pos, -⟩ := Lexeme.runOf_eq_some.1 h
  cases cs with
  | nil => exact absurd h_pos (Nat.lt_irrefl 0)
  | cons c cs =>
    refine ⟨c, rfl, ?_⟩
    by_contra h_c
    rw [List.takeWhile_cons_of_neg h_c] at h_pos
    exact Nat.lt_irrefl 0 h_pos

/-! ### Getting on -/

/-- **A recogniser leaves a proper suffix:** where it finds something, the text is what the find
takes, which is not empty, and the rest behind that. -/
def LeavesSuffix (r : Recogniser α) : Prop :=
  ∀ ⦃cs m⦄, r cs = some m →
    ∃ front, front ≠ [] ∧ front.length = m.length ∧ cs = front ++ cs.drop m.length

/-- That a find takes something is in its type, so it is enough that the text has that much. -/
theorem leavesSuffix_of_le {r : Recogniser α}
    (h : ∀ cs m, r cs = some m → m.length ≤ cs.length) : r.LeavesSuffix := by
  intro cs m h_m
  have h_length : (cs.take m.length).length = m.length := List.length_take_of_le (h cs m h_m)
  refine ⟨cs.take m.length, ?_, h_length, (List.take_append_drop _ _).symm⟩
  rw [← List.length_pos_iff, h_length]
  exact m.length_pos

end Recogniser

open Recogniser

/-! ### Tokens -/

namespace Lexeme

private theorem symbol_opens {kind : TokenKind} (h : kind ∈ TokenKind.symbols) :
    (symbol kind).Opens (isSymbolCharacter · = true) := by
  intro cs m h_m
  obtain ⟨⟨rest, rfl⟩, -⟩ := symbol_eq_some.1 h_m
  obtain ⟨c, spelling, h_spelling⟩ := List.exists_cons_of_ne_nil kind.describe_ne_nil
  refine ⟨c, by rw [h_spelling]; rfl, isSymbolCharacter_of_mem h c ?_⟩
  rw [h_spelling]
  exact List.mem_cons_self

private theorem string_opens : string.Opens (· = '"') := by
  intro cs m h
  obtain ⟨body, rest, rfl, -⟩ := string_eq_some h
  exact ⟨'"', rfl, rfl⟩

/-- Symbols that are equally long are spelled differently, so only one of them can be there. -/
private theorem symbol_noTie {kind kind' : TokenKind} (h : kind.describe ≠ kind'.describe) :
    (symbol kind).NoTie (symbol kind') := by
  intro cs m m' h_m h_m' h_length
  obtain ⟨h_begins, -, h_m⟩ := symbol_eq_some.1 h_m
  obtain ⟨h_begins', -, h_m'⟩ := symbol_eq_some.1 h_m'
  have h_lengths : kind.describe.toList.length = kind'.describe.toList.length := by
    rw [String.length_toList, String.length_toList, ← h_m, ← h_m', h_length]
  have h_begin := List.prefix_of_prefix_length_le h_begins h_begins' (Nat.le_of_eq h_lengths)
  exact h (String.toList_inj.1 (h_begin.eq_of_length h_lengths))

private theorem ne_quote {c : Char} {inClass : Char → Bool} (h_quote : inClass '"' = false)
    (h : inClass c = true) : c ≠ '"' := by
  rintro rfl
  rw [h_quote] at h
  cases h

/-- **The recognisers of tokens never tie.** -/
theorem neverTie_recognisers : NeverTie recognisers := by
  have h_word : word.Opens (isWordCharacter · = true) := runOf_opens _ _
  have h_number : number.Opens (·.isDigit = true) := runOf_opens _ _
  have h_word_quote : isWordCharacter '"' = false :=
    not_word_of_ascii (by decide) (by decide) (by decide)
  refine List.pairwise_append.2 ⟨?symbols, ?others, ?between⟩
  case symbols =>
    have h_spellings : TokenKind.symbols.Pairwise fun k k' => k.describe ≠ k'.describe := by decide
    exact List.pairwise_map.2 (h_spellings.imp symbol_noTie)
  case others =>
    have h_word_string : word.NoTie string :=
      h_word.noTie string_opens fun _ => ne_quote h_word_quote
    have h_word_number : word.NoTie number :=
      h_word.noTie h_number fun c h_c h_digit => by rw [not_word_of_digit h_digit] at h_c; cases h_c
    have h_string_number : string.NoTie number :=
      (h_number.noTie string_opens fun _ => ne_quote rfl).symm
    simp only [List.pairwise_cons, List.forall_mem_cons, List.not_mem_nil, false_implies,
      implies_true, List.Pairwise.nil, and_true]
    exact ⟨⟨h_word_string, h_word_number⟩, h_string_number⟩
  case between =>
    intro r h_r r' h_r'
    obtain ⟨kind, h_kind, rfl⟩ := List.mem_map.1 h_r
    have h_symbol := symbol_opens h_kind
    simp only [List.mem_cons, List.not_mem_nil, or_false] at h_r'
    rcases h_r' with rfl | rfl | rfl
    · exact h_symbol.noTie h_word fun c h_c h_word => by
        rw [not_word_of_symbol h_c] at h_word
        cases h_word
    · exact h_symbol.noTie string_opens fun _ => ne_quote rfl
    · exact h_symbol.noTie h_number fun c h_c h_digit => by
        rw [not_digit_of_symbol h_c] at h_digit
        cases h_digit

theorem leavesSuffix {r : Recogniser TokenKind} (h : r ∈ recognisers) : r.LeavesSuffix :=
  leavesSuffix_of_le fun _ _ => length_le_of_find h

end Lexeme

/-! ### Blanks and comments -/

namespace Segment

private theorem comment_opens : comment.Opens (· = '#') := by
  intro cs m h
  cases cs with
  | nil => cases h
  | cons c cs =>
    refine ⟨c, rfl, ?_⟩
    by_contra h_c
    rw [comment_eq_none h_c] at h
    cases h

/-- **Blanks and comments never tie.** -/
theorem neverTie_trivia : NeverTie trivia := by
  have h_blank : blank.Opens (Lexeme.isBlank · = true) := runOf_opens _ _
  refine List.pairwise_pair.2 (h_blank.noTie comment_opens ?_)
  rintro c h_c rfl
  cases h_c

theorem leavesSuffix {r : Recogniser SegmentKind} (h : r ∈ trivia) : r.LeavesSuffix := by
  refine leavesSuffix_of_le fun cs m h_m => ?_
  simp only [trivia, List.mem_cons, List.not_mem_nil, or_false] at h
  rcases h with rfl | rfl
  · rw [(Lexeme.runOf_eq_some.1 h_m).2.2]
    exact (List.takeWhile_prefix _).length_le
  · obtain ⟨c, h_c, rfl⟩ := comment_opens h_m
    obtain ⟨line, rfl⟩ := List.head?_eq_some_iff.1 h_c
    cases h_m
    exact Nat.succ_le_succ (List.takeWhile_prefix _).length_le

end Segment

end ScriptLang
