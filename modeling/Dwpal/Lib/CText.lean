import Mathlib.Data.List.Basic
import Mathlib.Data.List.DropRight

/-! Text that is searched and cut by the functions of the C library: the first occurrence of a
string, tokens between delimiters, and the words of a text. A text has no zero byte. -/

namespace Dwpal.CText

/-- A text as `sprintf_s` leaves it in a buffer of `dmax` bytes: empty if it does not fit. -/
def sprintfS (dmax : Nat) (text : List UInt8) : List UInt8 :=
  if text.length < dmax then text else []

/-- `strstr`: the text before the first occurrence of `needle`, and the text behind it. -/
def strstr (needle : List UInt8) : List UInt8 → Option (List UInt8 × List UInt8)
  | [] => if needle = [] then some ([], []) else none
  | b :: text =>
    if needle.isPrefixOf (b :: text) then some ([], (b :: text).drop needle.length)
    else (strstr needle text).map fun (before, rest) => (b :: before, rest)

/-- `strtok_s` with one delimiter, for a text of which it may read `dmax` bytes: the token, the text
behind its delimiter, and the bytes that may be read of it. -/
def strtokS (delim : UInt8) (dmax : Nat) (text : List UInt8) :
    Option (List UInt8 × List UInt8 × Nat) :=
  let skipped := (text.takeWhile (· == delim)).length
  let text := text.dropWhile (· == delim)
  let token := text.takeWhile (· != delim)
  match text.dropWhile (· != delim) with
  | [] =>
    if token = [] ∨ dmax < skipped + token.length then none
    else some (token, [], dmax - (skipped + token.length))
  | _ :: rest =>
    if dmax ≤ skipped + token.length then none
    else some (token, rest, dmax - (skipped + token.length + 1))

/-- The tokens that at most `fuel` calls of `strtok_s` give. -/
def tokens (delim : UInt8) : (fuel dmax : Nat) → List UInt8 → List (List UInt8)
  | 0, _, _ => []
  | fuel + 1, dmax, text =>
    match strtokS delim dmax text with
    | none => []
    | some (token, rest, dmax) => token :: tokens delim fuel dmax rest

/-- The words of a text: what lies between delimiters and is not empty. -/
def words (delim : UInt8) (text : List UInt8) : List (List UInt8) :=
  (text.splitOn delim).filter (· ≠ [])

/-- The part of a text in which tokens end, if `dmax` bytes of it may be read: all of it, or up to
the last delimiter among these bytes. -/
def readable (delim : UInt8) (dmax : Nat) (text : List UInt8) : List UInt8 :=
  if text.length ≤ dmax then text else (text.take dmax).rdropWhile (· != delim)

section Strstr

variable {needle text before rest : List UInt8}

theorem strstr_eq (h : strstr needle text = some (before, rest)) :
    text = before ++ needle ++ rest := by
  induction text generalizing before with
  | nil =>
    rw [strstr] at h
    split_ifs at h with hempty
    cases h
    rw [hempty]
    rfl
  | cons b text ih =>
    rw [strstr] at h
    split_ifs at h with hhere
    · cases h
      exact (List.prefix_iff_eq_append.mp (List.isPrefixOf_iff_prefix.mp hhere)).symm
    · obtain ⟨⟨before', rest'⟩, hlater, heq⟩ := Option.map_eq_some_iff.mp h
      cases heq
      rw [ih hlater]
      rfl

theorem strstr_isSome (before rest : List UInt8) :
    (strstr needle (before ++ needle ++ rest)).isSome = true := by
  induction before with
  | nil =>
    rw [List.nil_append]
    cases hneedle : needle ++ rest with
    | nil =>
      rw [List.append_eq_nil_iff] at hneedle
      rw [strstr, if_pos hneedle.1]
      rfl
    | cons b text =>
      have hhere : needle.isPrefixOf (b :: text) = true :=
        List.isPrefixOf_iff_prefix.mpr ⟨rest, hneedle⟩
      rw [strstr, if_pos hhere]
      rfl
  | cons b before ih =>
    rw [List.cons_append, List.cons_append, strstr]
    split
    · rfl
    · rw [Option.isSome_map]
      exact ih

/-- No occurrence begins further to the left than the one found. -/
theorem strstr_first (h : strstr needle text = some (before, rest)) {before' rest' : List UInt8}
    (hother : text = before' ++ needle ++ rest') : before.length ≤ before'.length := by
  induction text generalizing before before' with
  | nil =>
    rw [strstr] at h
    split_ifs at h
    cases h
    exact Nat.zero_le _
  | cons b text ih =>
    rw [strstr] at h
    split_ifs at h with hhere
    · cases h
      exact Nat.zero_le _
    · obtain ⟨⟨tail, rest''⟩, hlater, heq⟩ := Option.map_eq_some_iff.mp h
      cases heq
      cases before' with
      | nil =>
        refine absurd (List.isPrefixOf_iff_prefix.mpr ⟨rest', ?_⟩) hhere
        rw [hother]
        rfl
      | cons b' before' =>
        rw [List.cons_append, List.cons_append, List.cons.injEq] at hother
        exact Nat.succ_le_succ (ih hlater hother.2)

/-- The occurrence found is the one that has none to its left. -/
theorem strstr_of_first
    (hfirst : ∀ before' rest', before ++ needle ++ rest = before' ++ needle ++ rest' →
      before.length ≤ before'.length) :
    strstr needle (before ++ needle ++ rest) = some (before, rest) := by
  obtain ⟨⟨found, behind⟩, hfound⟩ :=
    Option.isSome_iff_exists.mp (@strstr_isSome needle before rest)
  have heq := strstr_eq hfound
  have hle := hfirst found behind heq
  have hge := strstr_first hfound rfl
  rw [List.append_assoc, List.append_assoc] at heq
  obtain ⟨hbefore, hrest⟩ := List.append_inj heq (Nat.le_antisymm hle hge)
  obtain ⟨-, hrest⟩ := List.append_inj hrest rfl
  rw [hfound, hbefore, hrest]

end Strstr

section Words

variable {delim : UInt8} {text : List UInt8}

@[simp] theorem words_nil : words delim [] = [] := by
  rw [words, List.splitOn_nil]
  rfl

/-- A delimiter separates words. -/
theorem words_append_delim (text text' : List UInt8) :
    words delim (text ++ delim :: text') = words delim text ++ words delim text' := by
  rw [words, List.splitOn_append_cons_self, List.filter_append]
  rfl

@[simp] theorem words_cons_delim : words delim (delim :: text) = words delim text := by
  have h := @words_append_delim delim [] text
  rwa [List.nil_append, words_nil, List.nil_append] at h

theorem words_of_notMem (hdelim : delim ∉ text) (hne : text ≠ []) : words delim text = [text] := by
  rw [words, List.splitOn_eq_singleton hdelim]
  exact List.filter_cons_of_pos (by simpa using hne)

theorem words_intercalate (texts : List (List UInt8)) :
    words delim ([delim].intercalate texts) = texts.flatMap (words delim) := by
  induction texts with
  | nil => exact words_nil
  | cons text texts ih =>
    cases texts with
    | nil => simp
    | cons text' texts =>
      rw [List.intercalate_cons_cons, List.append_assoc, List.singleton_append,
        words_append_delim, ih]
      rfl

theorem mem_intercalate {texts : List (List UInt8)} {b : UInt8}
    (h : b ∈ [delim].intercalate texts) : b = delim ∨ ∃ text ∈ texts, b ∈ text := by
  induction texts with
  | nil => cases h
  | cons text texts ih =>
    cases texts with
    | nil => exact .inr ⟨text, List.mem_cons_self, by simpa using h⟩
    | cons text' texts =>
      rw [List.intercalate_cons_cons, List.append_assoc, List.singleton_append] at h
      rcases List.mem_append.mp h with h | h
      · exact .inr ⟨text, List.mem_cons_self, h⟩
      · rcases List.mem_cons.mp h with h | h
        · exact .inl h
        · exact (ih h).imp_right fun ⟨text, hmem, hb⟩ => ⟨text, List.mem_cons_of_mem _ hmem, hb⟩

/-- A call of `strtok_s`: delimiters, a token without any, and what is behind it. -/
theorem strtokS_split (delim : UInt8) (dmax : Nat) (text : List UInt8) :
    ∃ skipped token, (∀ b ∈ skipped, b = delim) ∧ delim ∉ token ∧
      (text = skipped ++ token ∧ strtokS delim dmax text =
          (if token = [] ∨ dmax < skipped.length + token.length then none
          else some (token, [], dmax - (skipped.length + token.length))) ∨
        token ≠ [] ∧ ∃ rest, text = skipped ++ token ++ delim :: rest ∧ strtokS delim dmax text =
          if dmax ≤ skipped.length + token.length then none
          else some (token, rest, dmax - (skipped.length + token.length + 1))) := by
  have hskip := List.takeWhile_append_dropWhile (p := (· == delim)) (l := text)
  have htoken := List.takeWhile_append_dropWhile (p := (· != delim))
    (l := text.dropWhile (· == delim))
  refine ⟨text.takeWhile (· == delim), (text.dropWhile (· == delim)).takeWhile (· != delim),
    fun b hb => by simpa using List.mem_takeWhile_imp hb,
    fun hmem => by simpa using List.mem_takeWhile_imp hmem, ?_⟩
  cases hbehind : (text.dropWhile (· == delim)).dropWhile (· != delim) with
  | nil =>
    refine .inl ⟨?_, by rw [strtokS, hbehind]⟩
    rw [hbehind, List.append_nil] at htoken
    rw [htoken, hskip]
  | cons c rest =>
    have hc : c = delim := by
      have hhead := List.head?_dropWhile_not (· != delim) (text.dropWhile (· == delim))
      rw [hbehind] at hhead
      simpa using hhead
    subst hc
    rw [hbehind] at htoken
    refine .inr ⟨?_, rest, ?_, by rw [strtokS, hbehind]⟩
    · intro hnil
      rw [hnil, List.nil_append] at htoken
      have hhead := List.head?_dropWhile_not (· == c) text
      rw [← htoken] at hhead
      simp at hhead
    · rw [List.append_assoc, htoken, hskip]

/-- A call that finds a token with a delimiter behind it. -/
theorem strtokS_delim {skipped token rest : List UInt8} {dmax : Nat}
    (hskipped : ∀ b ∈ skipped, b = delim)
    (hne : token ≠ []) (htoken : delim ∉ token) (hdmax : skipped.length + token.length < dmax) :
    strtokS delim dmax (skipped ++ token ++ delim :: rest) =
      some (token, rest, dmax - (skipped.length + token.length + 1)) := by
  obtain ⟨b, token, rfl⟩ := List.exists_cons_of_ne_nil hne
  have hb : b ≠ delim := fun heq => htoken (heq ▸ List.mem_cons_self)
  have hskip : ∀ c ∈ skipped, (c == delim) = true := fun c hc => beq_iff_eq.mpr (hskipped c hc)
  have hall : ∀ c ∈ b :: token, (c != delim) = true := fun c hc =>
    bne_iff_ne.mpr fun heq => htoken (heq ▸ hc)
  rw [strtokS, List.append_assoc, List.takeWhile_append_of_pos hskip,
    List.dropWhile_append_of_pos hskip, List.cons_append,
    List.takeWhile_cons_of_neg (by simpa using hb), List.append_nil,
    List.dropWhile_cons_of_neg (by simpa using hb), ← List.cons_append,
    List.takeWhile_append_of_pos hall, List.dropWhile_append_of_pos hall,
    List.takeWhile_cons_of_neg (by simp), List.dropWhile_cons_of_neg (by simp), List.append_nil]
  exact if_neg (by omega)

/-- A call that finds a token at the end of the text. -/
theorem strtokS_end {skipped token : List UInt8} {dmax : Nat} (hskipped : ∀ b ∈ skipped, b = delim)
    (hne : token ≠ []) (htoken : delim ∉ token) (hdmax : skipped.length + token.length ≤ dmax) :
    strtokS delim dmax (skipped ++ token) =
      some (token, [], dmax - (skipped.length + token.length)) := by
  obtain ⟨b, token, rfl⟩ := List.exists_cons_of_ne_nil hne
  have hb : b ≠ delim := fun heq => htoken (heq ▸ List.mem_cons_self)
  have hskip : ∀ c ∈ skipped, (c == delim) = true := fun c hc => beq_iff_eq.mpr (hskipped c hc)
  have hall : ∀ c ∈ b :: token, (c != delim) = true := fun c hc =>
    bne_iff_ne.mpr fun heq => htoken (heq ▸ hc)
  rw [strtokS, List.takeWhile_append_of_pos hskip, List.dropWhile_append_of_pos hskip,
    List.takeWhile_cons_of_neg (by simpa using hb), List.append_nil,
    List.dropWhile_cons_of_neg (by simpa using hb), List.takeWhile_eq_self_iff.mpr hall,
    List.dropWhile_eq_nil_iff.mpr hall]
  dsimp only
  rw [if_neg]
  rw [not_or]
  exact ⟨List.cons_ne_nil _ _, by omega⟩

theorem words_skip {skipped : List UInt8} (h : ∀ b ∈ skipped, b = delim) :
    words delim (skipped ++ text) = words delim text := by
  induction skipped with
  | nil => rfl
  | cons b skipped ih =>
    obtain ⟨rfl, h⟩ := List.forall_mem_cons.mp h
    rw [List.cons_append, words_cons_delim, ih h]

theorem words_of_all_delim (h : ∀ b ∈ text, b = delim) : words delim text = [] := by
  rw [← List.append_nil text, words_skip h, words_nil]

@[simp] theorem tokens_nil {fuel dmax : Nat} : tokens delim fuel dmax [] = [] := by
  cases fuel <;> rfl

/-- The tokens of a text of which all may be read are its words. -/
theorem tokens_eq_words {fuel dmax : Nat} (hfuel : text.length < 2 * fuel)
    (hdmax : text.length ≤ dmax) :
    tokens delim fuel dmax text = words delim text := by
  induction fuel generalizing text dmax with
  | zero => exact absurd hfuel (Nat.not_lt_zero _)
  | succ fuel ih =>
    rw [tokens]
    obtain ⟨skipped, token, hskipped, htoken, ⟨htext, hcall⟩ | ⟨hne, rest, htext, hcall⟩⟩ :=
      strtokS_split delim dmax text
    all_goals
      have hlen := congrArg List.length htext
      simp only [List.length_append, List.length_cons] at hlen
      rw [hcall, htext]
    · rw [words_skip hskipped]
      by_cases hempty : token = []
      · rw [if_pos (.inl hempty), hempty, words_nil]
      · rw [if_neg (by rw [not_or]; exact ⟨hempty, by omega⟩), words_of_notMem htoken hempty]
        dsimp only
        rw [tokens_nil]
    · have hpos := List.length_pos_of_ne_nil hne
      rw [if_neg (by omega)]
      dsimp only
      rw [ih (by omega) (by omega), words_append_delim, words_skip hskipped,
        words_of_notMem htoken hne]
      rfl

theorem eq_delim_of_rdropWhile {front : List UInt8} {last : UInt8}
    (h : text.rdropWhile (· != delim) = front ++ [last]) : last = delim := by
  have hnot := List.rdropWhile_last_not (· != delim) text (by rw [h]; simp)
  simp only [h, List.getLast_append_singleton] at hnot
  simpa using hnot

/-- No token ends in front of its delimiter. -/
theorem words_rdropWhile_unfinished {skipped token : List UInt8}
    (hskipped : ∀ b ∈ skipped, b = delim) (htoken : delim ∉ token) (n : Nat) :
    words delim (((skipped ++ token).take n).rdropWhile (· != delim)) = [] := by
  have hpart : ((skipped ++ token).take n).rdropWhile (· != delim) <+: skipped ++ token :=
    (List.rdropWhile_prefix _ _).trans (List.take_prefix _ _)
  apply words_of_all_delim
  rcases List.eq_nil_or_concat' (((skipped ++ token).take n).rdropWhile (· != delim)) with
    hnil | ⟨front, last, hlast⟩
  · rw [hnil]
    exact fun b hb => by cases hb
  · have hdelim := eq_delim_of_rdropWhile hlast
    obtain ⟨rest, hrest⟩ := hpart
    rw [hlast, List.append_assoc] at hrest
    rw [hlast]
    intro b hb
    rcases List.append_eq_append_iff.mp hrest with ⟨tail, rfl, htail⟩ | ⟨tail, -, rfl⟩
    · cases tail with
      | nil =>
        rw [List.nil_append] at htail
        exact absurd (by simp [← htail, hdelim]) htoken
      | cons c tail =>
        obtain ⟨rfl, -⟩ := List.cons.inj htail
        refine hskipped b (List.append_cons front last tail ▸ List.mem_append_left tail hb)
    · exact absurd (by simp [hdelim]) htoken

theorem mem_of_mem_tokens {fuel dmax : Nat} {token : List UInt8} {b : UInt8}
    (htoken : token ∈ tokens delim fuel dmax text) (hb : b ∈ token) : b ∈ text := by
  induction fuel generalizing text dmax with
  | zero => cases htoken
  | succ fuel ih =>
    rw [tokens] at htoken
    obtain ⟨skipped, first, -, -, ⟨htext, hcall⟩ | ⟨-, rest, htext, hcall⟩⟩ :=
      strtokS_split delim dmax text
    all_goals
      rw [hcall] at htoken
      split_ifs at htoken
      · cases htoken
      rw [htext]
      rcases List.mem_cons.mp htoken with rfl | hlater
    · exact List.mem_append_right _ hb
    · exact absurd (ih hlater) List.not_mem_nil
    · exact List.mem_append_left _ (List.mem_append_right _ hb)
    · exact List.mem_append_right _ (List.mem_cons_of_mem _ (ih hlater))

/-- The tokens of a text of which only a part may be read are the words of the part in which tokens
end. -/
theorem tokens_eq_words_readable {fuel dmax : Nat} (hfuel : dmax < 2 * fuel) :
    tokens delim fuel dmax text = words delim (readable delim dmax text) := by
  by_cases hall : text.length ≤ dmax
  · rw [readable, if_pos hall]
    exact tokens_eq_words (by omega) hall
  induction fuel generalizing text dmax with
  | zero => omega
  | succ fuel ih =>
    rw [readable, if_neg hall, tokens]
    obtain ⟨skipped, token, hskipped, htoken, ⟨htext, hcall⟩ | ⟨hne, rest, htext, hcall⟩⟩ :=
      strtokS_split delim dmax text
    · rw [hcall, htext, words_rdropWhile_unfinished hskipped htoken]
      rw [htext, List.length_append] at hall
      rw [if_pos (.inr (by omega))]
    · rw [hcall]
      have hlen := congrArg List.length htext
      simp only [List.length_append, List.length_cons] at hlen
      have hpos := List.length_pos_of_ne_nil hne
      by_cases hend : dmax ≤ skipped.length + token.length
      · rw [if_pos hend, htext, List.take_append_of_le_length (by simpa using hend),
          words_rdropWhile_unfinished hskipped htoken]
      · rw [if_neg hend]
        dsimp only
        rw [ih (by omega) (by omega), readable, if_neg (by omega)]
        obtain ⟨n, rfl⟩ : ∃ n, dmax = skipped.length + token.length + 1 + n :=
          Nat.exists_eq_add_of_le (by omega)
        have htake : text.take (skipped.length + token.length + 1 + n) =
            skipped ++ token ++ delim :: rest.take n := by
          rw [htext, Nat.add_assoc _ 1 n, Nat.add_comm 1 n, ← List.length_append,
            List.take_length_add_append, List.take_succ_cons]
        have hdrop : (skipped ++ token ++ delim :: rest.take n).rdropWhile (· != delim) =
            skipped ++ token ++ delim :: (rest.take n).rdropWhile (· != delim) := by
          simp [List.rdropWhile, List.dropWhile_append, List.append_assoc]
        rw [Nat.add_sub_cancel_left, htake, hdrop, words_append_delim, words_skip hskipped,
          words_of_notMem htoken hne]
        rfl

theorem words_append_all_delim {tail : List UInt8} (h : ∀ b ∈ tail, b = delim) :
    words delim (text ++ tail) = words delim text := by
  cases tail with
  | nil => rw [List.append_nil]
  | cons b tail =>
    obtain ⟨rfl, htail⟩ := List.forall_mem_cons.mp h
    rw [words_append_delim, words_of_all_delim htail, List.append_nil]

/-- A text is its beginning up to the last word, and delimiters. -/
theorem rdropWhile_delim (text : List UInt8) :
    ∃ tail, text = text.rdropWhile (· == delim) ++ tail ∧ ∀ b ∈ tail, b = delim := by
  refine ⟨text.rtakeWhile (· == delim), (List.rdropWhile_append_rtakeWhile ..).symm, fun b hb => ?_⟩
  simpa using List.mem_rtakeWhile_imp hb

/-- All tokens end in the part that may be read if this reaches behind the last of them. -/
theorem words_readable_of_trimmed {dmax : Nat} (h : (text.rdropWhile (· == delim)).length < dmax) :
    words delim (readable delim dmax text) = words delim text := by
  rw [readable]
  split_ifs with hall
  · rfl
  obtain ⟨tail, htext, htail⟩ := @rdropWhile_delim delim text
  generalize text.rdropWhile (· == delim) = front at h htext
  subst htext
  obtain ⟨n, rfl⟩ := Nat.exists_eq_add_of_lt h
  obtain ⟨b, hb⟩ : ∃ b, tail[n]? = some b := by
    rw [List.length_append] at hall
    exact ⟨_, List.getElem?_eq_getElem (by omega)⟩
  obtain rfl := htail b (List.mem_of_getElem? hb)
  rw [Nat.add_assoc, List.take_length_add_append, List.take_add_one, hb, ← List.append_assoc,
    Option.toList_some, List.rdropWhile_concat_neg _ _ _ (by simp), List.append_assoc,
    words_append_all_delim htail, words_append_all_delim]
  intro c hc
  rcases List.mem_append.mp hc with hc | hc
  · exact htail c (List.mem_of_mem_take hc)
  · exact List.mem_singleton.mp hc

/-- Behind the part in which tokens end more words may follow. -/
theorem words_readable_leading (dmax : Nat) :
    words delim (readable delim dmax text) <+: words delim text := by
  rw [readable]
  split_ifs
  · exact List.prefix_refl _
  obtain ⟨behind, hbehind⟩ : (text.take dmax).rdropWhile (· != delim) <+: text :=
    (List.rdropWhile_prefix _ _).trans (List.take_prefix _ _)
  rcases List.eq_nil_or_concat' ((text.take dmax).rdropWhile (· != delim)) with
    hnil | ⟨front, last, hlast⟩
  · rw [hnil, words_nil]
    exact List.nil_prefix
  · rw [hlast, eq_delim_of_rdropWhile hlast] at hbehind
    rw [hlast, eq_delim_of_rdropWhile hlast]
    rw [← hbehind, List.append_assoc, List.singleton_append, words_append_delim, words_append_delim,
      words_nil, List.append_nil]
    exact List.prefix_append _ _

/-- A token has at least one byte, and a delimiter in front of the next one. -/
theorem length_tokens_le {fuel dmax : Nat} :
    2 * (tokens delim fuel dmax text).length ≤ dmax + 1 := by
  induction fuel generalizing text dmax with
  | zero => exact Nat.zero_le _
  | succ fuel ih =>
    rw [tokens]
    obtain ⟨skipped, token, -, -, ⟨-, hcall⟩ | ⟨hne, rest, -, hcall⟩⟩ :=
      strtokS_split delim dmax text
    · rw [hcall]
      split_ifs with hnone
      · exact Nat.zero_le _
      · rw [not_or] at hnone
        have hpos := List.length_pos_of_ne_nil hnone.1
        rw [List.length_cons, tokens_nil, List.length_nil]
        omega
    · rw [hcall]
      have hpos := List.length_pos_of_ne_nil hne
      split_ifs with hend
      · exact Nat.zero_le _
      · have hrest := @ih rest (dmax - (skipped.length + token.length + 1))
        rw [List.length_cons]
        omega

/-- A token is not empty, has no delimiter, and lies in the part that may be read. -/
theorem of_mem_tokens {fuel dmax : Nat} {token : List UInt8}
    (h : token ∈ tokens delim fuel dmax text) :
    token ≠ [] ∧ delim ∉ token ∧ token.length ≤ dmax := by
  induction fuel generalizing text dmax with
  | zero => cases h
  | succ fuel ih =>
    rw [tokens] at h
    obtain ⟨skipped, first, -, hdelim, ⟨-, hcall⟩ | ⟨hne, rest, -, hcall⟩⟩ :=
      strtokS_split delim dmax text
    all_goals
      rw [hcall] at h
      split_ifs at h with hnone
      · cases h
    · rw [not_or] at hnone
      rcases List.mem_cons.mp h with rfl | hlater
      · exact ⟨hnone.1, hdelim, by omega⟩
      · obtain ⟨hne, hdelim, hle⟩ := ih hlater
        exact ⟨hne, hdelim, by omega⟩
    · rcases List.mem_cons.mp h with rfl | hlater
      · exact ⟨hne, hdelim, by omega⟩
      · obtain ⟨hne, hdelim, hle⟩ := ih hlater
        exact ⟨hne, hdelim, by omega⟩

theorem mem_of_mem_words {token : List UInt8} {b : UInt8} (htoken : token ∈ words delim text)
    (hb : b ∈ token) : b ∈ text := by
  have hfuel : text.length < 2 * (text.length + 1) := by omega
  rw [← tokens_eq_words hfuel (Nat.le_refl _)] at htoken
  exact mem_of_mem_tokens htoken hb

end Words

end Dwpal.CText
