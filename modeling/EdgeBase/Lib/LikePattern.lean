import Mathlib.Data.List.Infix

/-!
# Patterns of `LIKE`

* `LikePattern.like_contains` : between two `%`, a plain text asks for the texts that contain it.
* `LikePattern.plain_of_like_contains` : no other text does.
-/

namespace LikePattern

open List

def isMeta (c : Char) : Bool := c = '%' || c = '_' || c = '\\'

/-- Whether a text matches a pattern; the first argument is what is left of the pattern, and a
backslash takes the next character as it is. -/
def like : List Char → List Char → Bool
  | [], text => text.isEmpty
  | '%' :: pattern, text => text.tails.any (like pattern)
  | '_' :: _, [] => false
  | '_' :: pattern, _ :: text => like pattern text
  | '\\' :: c :: pattern, text =>
    match text with
    | [] => false
    | d :: text => c = d && like pattern text
  | _ :: _, [] => false
  | c :: pattern, d :: text => c = d && like pattern text

def Plain (s : List Char) : Prop := ∀ c ∈ s, isMeta c = false

instance (s : List Char) : Decidable (Plain s) := inferInstanceAs (Decidable (∀ c ∈ s, _))

/-! ### Plain texts -/

theorem like_percent (pattern text : List Char) :
    like ('%' :: pattern) text = text.tails.any (like pattern) := by
  rw [like]

theorem like_plain_cons {c : Char} (hc : isMeta c = false) (pattern : List Char) (d : Char)
    (text : List Char) : like (c :: pattern) (d :: text) = (c = d && like pattern text) := by
  simp only [isMeta, Bool.or_eq_false_iff, decide_eq_false_iff_not] at hc
  rw [like]
  · exact hc.1.1
  · exact hc.1.2
  · exact fun _ _ h => absurd h hc.2

theorem like_plain_nil {c : Char} (hc : isMeta c = false) (pattern : List Char) :
    like (c :: pattern) [] = false := by
  simp only [isMeta, Bool.or_eq_false_iff, decide_eq_false_iff_not] at hc
  rw [like]
  · exact hc.1.1
  · exact hc.1.2
  · exact fun _ _ h => absurd h hc.2

theorem like_plain_append {s : List Char} (hs : Plain s) (pattern text : List Char) :
    like (s ++ pattern) text = true ↔ ∃ rest, text = s ++ rest ∧ like pattern rest = true := by
  induction s generalizing text with
  | nil => simp
  | cons c s ih =>
    obtain ⟨hc, hs⟩ := forall_mem_cons.1 hs
    cases text with
    | nil =>
      rw [cons_append, like_plain_nil hc]
      simp
    | cons d text =>
      rw [cons_append, like_plain_cons hc, Bool.and_eq_true, decide_eq_true_eq, ih hs]
      constructor
      · rintro ⟨rfl, rest, rfl, h⟩
        exact ⟨rest, rfl, h⟩
      · rintro ⟨rest, hrest, h⟩
        obtain ⟨rfl, rfl⟩ := List.cons.inj hrest
        exact ⟨rfl, rest, rfl, h⟩

/-- `%` matches everything. -/
theorem like_percent_nil (text : List Char) : like ['%'] text = true := by
  rw [like_percent, any_eq_true]
  exact ⟨[], (mem_tails _ _).2 nil_suffix, rfl⟩

/-- Between two `%`, a plain text asks for the texts that contain it. -/
theorem like_contains {s : List Char} (hs : Plain s) (text : List Char) :
    like ('%' :: (s ++ ['%'])) text = true ↔ s <:+: text := by
  rw [like_percent, any_eq_true]
  constructor
  · rintro ⟨suffix, hsuffix, h⟩
    obtain ⟨rest, rfl, -⟩ := (like_plain_append hs _ _).1 h
    obtain ⟨front, rfl⟩ := (mem_tails _ _).1 hsuffix
    exact ⟨front, rest, by rw [append_assoc]⟩
  · rintro ⟨front, rest, rfl⟩
    refine ⟨s ++ rest, (mem_tails _ _).2 ⟨front, by rw [append_assoc]⟩, ?_⟩
    exact (like_plain_append hs _ _).2 ⟨rest, rfl, like_percent_nil rest⟩

/-! ### Other texts -/

/-- A short text that matches a pattern followed by `%`; an escape at its end takes the `%`. -/
def sample : List Char → List Char
  | [] => []
  | '%' :: pattern => sample pattern
  | '_' :: pattern => 'a' :: sample pattern
  | ['\\'] => ['%']
  | '\\' :: c :: pattern => c :: sample pattern
  | c :: pattern => c :: sample pattern

theorem isMeta_of_last {c : Char} {pattern : List Char} (hpercent : c = '%' → False)
    (hunderscore : c = '_' → False) (hend : c = '\\' → pattern = [] → False)
    (hescape : ∀ d rest, c = '\\' → pattern = d :: rest → False) : isMeta c = false := by
  simp only [isMeta, Bool.or_eq_false_iff, decide_eq_false_iff_not]
  refine ⟨⟨hpercent, hunderscore⟩, fun hc => ?_⟩
  cases pattern with
  | nil => exact hend hc rfl
  | cons d rest => exact hescape d rest hc rfl

theorem like_sample (s : List Char) : like (s ++ ['%']) (sample s) = true := by
  induction s using sample.induct with
  | case1 => exact like_percent_nil []
  | case2 pattern ih =>
    rw [sample, cons_append, like_percent, any_eq_true]
    exact ⟨_, (mem_tails _ _).2 (suffix_refl _), ih⟩
  | case3 pattern ih =>
    rw [sample, cons_append, like]
    exact ih
  | case4 => decide
  | case5 c pattern ih =>
    rw [sample, cons_append, cons_append, like, Bool.and_eq_true]
    exact ⟨decide_eq_true rfl, ih⟩
  | case6 c pattern hpercent hunderscore hend hescape ih =>
    rw [sample, cons_append, like_plain_cons, Bool.and_eq_true]
    · exact ⟨decide_eq_true rfl, ih⟩
    · exact isMeta_of_last hpercent hunderscore hend hescape
    · exact hpercent
    · exact hunderscore
    · exact hend
    · exact hescape

theorem length_sample_le (s : List Char) : (sample s).length ≤ s.length := by
  induction s using sample.induct <;> simp_all [sample] <;> omega

theorem mem_sample {s : List Char} {c : Char} (h : c ∈ sample s) : c ∈ s ∨ c = 'a' ∨ c = '%' := by
  induction s using sample.induct with
  | case1 => exact absurd h not_mem_nil
  | case2 pattern ih =>
    rw [sample] at h
    exact (ih h).imp_left (mem_cons_of_mem _)
  | case3 pattern ih =>
    rw [sample] at h
    obtain rfl | h := mem_cons.1 h
    · exact .inr (.inl rfl)
    · exact (ih h).imp_left (mem_cons_of_mem _)
  | case4 => exact .inr (.inr (mem_singleton.1 h))
  | case5 d pattern ih =>
    rw [sample] at h
    obtain rfl | h := mem_cons.1 h
    · exact .inl (mem_cons_of_mem _ mem_cons_self)
    · exact (ih h).imp_left fun h => mem_cons_of_mem _ (mem_cons_of_mem _ h)
  | case6 d pattern hpercent hunderscore hend hescape ih =>
    rw [sample] at h
    · obtain rfl | h := mem_cons.1 h
      · exact .inl mem_cons_self
      · exact (ih h).imp_left (mem_cons_of_mem _)
    · exact hpercent
    · exact hunderscore
    · exact hend
    · exact hescape

theorem plain_of_sample_eq {s : List Char} (h : sample s = s) : Plain s := by
  induction s using sample.induct with
  | case1 => exact nofun
  | case2 pattern _ =>
    have hlen := length_sample_le pattern
    rw [sample] at h
    rw [h, length_cons] at hlen
    omega
  | case3 pattern _ =>
    rw [sample] at h
    exact absurd (List.cons.inj h).1 (by decide)
  | case4 => exact absurd h (by decide)
  | case5 c pattern _ =>
    have hlen := length_sample_le pattern
    have heq := congrArg List.length h
    rw [sample, length_cons, length_cons, length_cons] at heq
    omega
  | case6 c pattern hpercent hunderscore hend hescape ih =>
    rw [sample] at h
    · exact forall_mem_cons.2
        ⟨isMeta_of_last hpercent hunderscore hend hescape, ih (List.cons.inj h).2⟩
    · exact hpercent
    · exact hunderscore
    · exact hend
    · exact hescape

theorem plain_of_like_contains {s : List Char}
    (h : like ('%' :: (s ++ ['%'])) (sample s) = true → s <:+: sample s) : Plain s := by
  have hlike : like ('%' :: (s ++ ['%'])) (sample s) = true := by
    rw [like_percent, any_eq_true]
    exact ⟨_, (mem_tails _ _).2 (suffix_refl _), like_sample s⟩
  have hpart := h hlike
  exact plain_of_sample_eq (hpart.eq_of_length_le (length_sample_le s)).symm

end LikePattern
