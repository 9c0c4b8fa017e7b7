import Mathlib.Data.List.Basic
import Mathlib.Logic.Function.Basic

/-!
# The counter of the rate limits

`FixedWindowCounter` counts the requests of a key in a window that begins with the first of them.

* `FixedWindowCounter.check` : a request is admitted and counted, or rejected.
* `admitted_le` : how many requests of a key are admitted in a time as long as its window.
* `limit_le_of_rejected` : none is rejected unless so many were admitted in the window before it.
-/

namespace EdgeBase.RateLimit

open List

structure Bucket where
  count : ℕ
  resetAt : ℕ

structure FixedWindowCounter where
  buckets : String → Option Bucket
  lastCleanup : ℕ

/-- A call of `check`. -/
structure Call where
  key : String
  limit : ℕ
  windowSec : ℕ
  /-- `Date.now()`. -/
  now : ℕ

def Call.windowMs (call : Call) : ℕ := call.windowSec * 1000

/-- The bucket of a key, unless its window is over. -/
def live (now : ℕ) (bucket : Option Bucket) : Option Bucket := bucket.filter (now < ·.resetAt)

/-- What `check` does to the bucket of its key. -/
def Call.count (call : Call) (bucket : Option Bucket) : Bool × Option Bucket :=
  if call.limit = 0 then (false, bucket)
  else
    match live call.now bucket with
    | none => (true, some ⟨1, call.now + call.windowMs⟩)
    | some bucket =>
      if call.limit ≤ bucket.count then (false, some bucket)
      else (true, some { bucket with count := bucket.count + 1 })

namespace FixedWindowCounter

def CLEANUP_INTERVAL : ℕ := 120000

def new (now : ℕ) : FixedWindowCounter := ⟨fun _ => none, now⟩

def maybeCleanup (c : FixedWindowCounter) (now : ℕ) : FixedWindowCounter :=
  if now - c.lastCleanup < CLEANUP_INTERVAL then c
  else ⟨fun key => live now (c.buckets key), now⟩

def check (c : FixedWindowCounter) (call : Call) : Bool × FixedWindowCounter :=
  let c := c.maybeCleanup call.now
  let (admits, bucket) := call.count (c.buckets call.key)
  (admits, { c with buckets := Function.update c.buckets call.key bucket })

/-- The calls that are answered with `true`, and the counter behind them. -/
def checkAll (c : FixedWindowCounter) : List Call → List Call × FixedWindowCounter
  | [] => ([], c)
  | call :: calls =>
    let rest := (c.check call).2.checkAll calls
    (if (c.check call).1 then call :: rest.1 else rest.1, rest.2)

def admitted (c : FixedWindowCounter) (key : String) (calls : List Call) : List Call :=
  (c.checkAll calls).1.filter (·.key = key)

/-! ### A call -/

variable {c : FixedWindowCounter} {call : Call} {calls : List Call} {key : String} {t u n : ℕ}
  {bucket : Option Bucket}

theorem live_live (h : t ≤ u) (bucket : Option Bucket) : live u (live t bucket) = live u bucket := by
  rw [live, live, live, Option.filter_filter]
  congr
  funext b
  rw [Bool.eq_iff_iff, Bool.and_eq_true, decide_eq_true_eq, decide_eq_true_eq]
  omega

/-- What a call can do. -/
theorem count_cases (call : Call) (bucket : Option Bucket) :
    (call.limit = 0 ∧ call.count bucket = (false, bucket)) ∨
    (0 < call.limit ∧ live call.now bucket = none ∧
      call.count bucket = (true, some ⟨1, call.now + call.windowMs⟩)) ∨
    (∃ b, live call.now bucket = some b ∧ call.limit ≤ b.count ∧
      call.count bucket = (false, some b)) ∨
    ∃ b, live call.now bucket = some b ∧ b.count < call.limit ∧
      call.count bucket = (true, some { b with count := b.count + 1 }) := by
  rcases Nat.eq_zero_or_pos call.limit with hlimit | hlimit
  · exact .inl ⟨hlimit, if_pos hlimit⟩
  · rw [Call.count, if_neg (Nat.ne_of_gt hlimit)]
    cases live call.now bucket with
    | none => exact .inr (.inl ⟨hlimit, rfl, rfl⟩)
    | some b =>
      rcases Nat.lt_or_ge b.count call.limit with hfull | hfull
      · exact .inr (.inr (.inr ⟨b, rfl, hfull, if_neg (Nat.not_le.2 hfull)⟩))
      · exact .inr (.inr (.inl ⟨b, rfl, hfull, if_pos hfull⟩))

theorem live_some {b : Bucket} (h : t < b.resetAt) : live t (some b) = some b :=
  Option.filter_some_pos (decide_eq_true h)

theorem lt_of_live {b : Bucket} (h : live t bucket = some b) : t < b.resetAt ∧ bucket = some b :=
  ⟨of_decide_eq_true (Option.filter_eq_some_iff.1 h).2, (Option.filter_eq_some_iff.1 h).1⟩

/-- What is cleaned up is over. -/
theorem live_maybeCleanup (h : t ≤ u) :
    live u ((c.maybeCleanup t).buckets key) = live u (c.buckets key) := by
  unfold maybeCleanup
  split_ifs
  · rfl
  · exact live_live h _

theorem count_live (call : Call) (bucket : Option Bucket) :
    (call.count (live call.now bucket)).1 = (call.count bucket).1 ∧
      live call.now (call.count (live call.now bucket)).2 =
        live call.now (call.count bucket).2 := by
  unfold Call.count
  rw [live_live (Nat.le_refl _)]
  split_ifs
  · exact ⟨rfl, live_live (Nat.le_refl _) bucket⟩
  · exact ⟨rfl, rfl⟩

/-- A call sees and changes the bucket of its key only, whether there was a cleanup or not. -/
theorem check_eq (c : FixedWindowCounter) (call : Call) :
    (c.check call).1 = (call.count (live call.now (c.buckets call.key))).1 ∧
      ∀ key, live call.now ((c.check call).2.buckets key) =
        if key = call.key then
          live call.now (call.count (live call.now (c.buckets call.key))).2
        else live call.now (c.buckets key) := by
  obtain ⟨hanswer, hbucket⟩ := count_live call ((c.maybeCleanup call.now).buckets call.key)
  rw [live_maybeCleanup (Nat.le_refl _)] at hanswer hbucket
  refine ⟨hanswer.symm, fun key => ?_⟩
  rw [check]
  dsimp only
  split_ifs with hkey
  · rw [hkey, Function.update_self, hbucket]
  · rw [Function.update_of_ne hkey, live_maybeCleanup (Nat.le_refl _)]

/-! ### Not too many -/

/-- How many requests a window still admits. -/
def left (limit : ℕ) : Option Bucket → ℕ
  | none => limit
  | some bucket => limit - bucket.count

/-- When the window ends that a request at `t` belongs to. -/
def ends (t windowMs : ℕ) : Option Bucket → ℕ
  | none => t + windowMs
  | some bucket => bucket.resetAt

variable {limit windowSec : ℕ}

theorem ends_mono (h : t ≤ u) : ends t n bucket ≤ ends u n bucket := by
  cases bucket with
  | none => exact Nat.add_le_add_right h n
  | some _ => exact Nat.le_refl _

/-- A window stays the same until it ends. -/
theorem live_of_lt_ends (h : t ≤ u) (hu : u < ends t n (live t bucket)) :
    live u bucket = live t bucket := by
  rw [← live_live h]
  cases hlive : live t bucket with
  | none => rfl
  | some b =>
    rw [hlive] at hu
    exact live_some hu

/-- A request that is counted in a window leaves less of it. -/
theorem count_spec (h : call.now < ends call.now call.windowMs bucket)
    (hlive : live call.now bucket = bucket) :
    left call.limit (live call.now (call.count bucket).2) + (call.count bucket).1.toNat ≤
        left call.limit bucket ∧
      ∀ n ≤ call.windowMs,
        ends call.now n bucket ≤ ends call.now n (live call.now (call.count bucket).2) := by
  rcases count_cases call bucket with
    ⟨-, hcount⟩ | ⟨hlimit, hnone, hcount⟩ | ⟨b, hsome, -, hcount⟩ | ⟨b, hsome, hfull, hcount⟩
  · rw [hcount, hlive]
    exact ⟨Nat.le_refl _, fun _ _ => Nat.le_refl _⟩
  · rw [hlive] at hnone
    subst hnone
    rw [hcount, live_some h]
    exact ⟨Nat.le_of_eq (Nat.sub_add_cancel hlimit), fun n hn => Nat.add_le_add_left hn _⟩
  · rw [hlive] at hsome
    rw [hcount, ← hsome, hlive]
    exact ⟨Nat.le_refl _, fun _ _ => Nat.le_refl _⟩
  · obtain rfl : bucket = some b := hlive.symm.trans hsome
    rw [hcount, live_some (b := { b with count := b.count + 1 }) h]
    refine ⟨?_, fun _ _ => Nat.le_refl _⟩
    dsimp only [left, Bool.toNat_true]
    omega

/-- The requests of a key that are admitted before some time. -/
def number (c : FixedWindowCounter) (key : String) (u : ℕ) (calls : List Call) : ℕ :=
  (c.admitted key calls).countP (·.now < u)

theorem admitted_cons (c : FixedWindowCounter) (key : String) (call : Call) (calls : List Call) :
    c.admitted key (call :: calls) =
      (if (c.check call).1 ∧ call.key = key then [call] else []) ++
        (c.check call).2.admitted key calls := by
  rw [admitted, checkAll]
  dsimp only
  by_cases hadmits : (c.check call).1 = true
  · rw [if_pos hadmits, filter_cons]
    simp only [hadmits, true_and, decide_eq_true_eq]
    split_ifs <;> rfl
  · rw [if_neg hadmits, if_neg fun h => hadmits h.1]
    rfl

theorem number_cons (hcall : call.now < u) :
    c.number key u (call :: calls) =
      (if (c.check call).1 ∧ call.key = key then 1 else 0) +
        (c.check call).2.number key u calls := by
  rw [number, admitted_cons, countP_append, number]
  congr 1
  split_ifs
  · exact countP_eq_length.2 (by simpa using hcall)
  · rfl

theorem mem_calls_of_mem_admitted {a : Call} (h : a ∈ c.admitted key calls) : a ∈ calls := by
  induction calls generalizing c with
  | nil => exact h
  | cons call calls ih =>
    rw [admitted_cons, mem_append] at h
    rcases h with h | h
    · split_ifs at h
      · rw [mem_singleton.1 h]
        exact mem_cons_self
      · cases h
    · exact mem_cons_of_mem _ (ih h)

theorem number_eq_zero (h : ∀ call ∈ calls, u ≤ call.now) : c.number key u calls = 0 := by
  rw [number, countP_eq_zero]
  intro a ha
  have hle := h a (mem_calls_of_mem_admitted ha)
  simpa using hle

/-- The calls come in order, and those of the key have its limit. -/
structure Steady (key : String) (limit windowSec t : ℕ) (calls : List Call) : Prop where
  sorted : calls.Pairwise (·.now ≤ ·.now)
  le : ∀ call ∈ calls, t ≤ call.now
  limits : ∀ call ∈ calls, call.key = key → call.limit = limit ∧ call.windowSec = windowSec

theorem Steady.tail (h : Steady key limit windowSec t (call :: calls)) :
    Steady key limit windowSec call.now calls :=
  ⟨(pairwise_cons.1 h.sorted).2, (pairwise_cons.1 h.sorted).1,
    fun a ha => h.limits a (mem_cons_of_mem _ ha)⟩

theorem Steady.head (h : Steady key limit windowSec t (call :: calls)) : t ≤ call.now :=
  h.le call mem_cons_self

/-- A call in the window of a key. -/
theorem check_spec (h : Steady key limit windowSec t (call :: calls))
    (hnow : call.now < ends t (windowSec * 1000) (live t (c.buckets key))) :
    left limit (live call.now ((c.check call).2.buckets key)) +
        (if (c.check call).1 ∧ call.key = key then 1 else 0) ≤ left limit (live t (c.buckets key)) ∧
      ∀ n ≤ windowSec * 1000, ends t n (live t (c.buckets key)) ≤
        ends call.now n (live call.now ((c.check call).2.buckets key)) := by
  have hsame := live_of_lt_ends h.head hnow
  obtain ⟨hanswer, hbucket⟩ := check_eq c call
  rw [hbucket]
  by_cases hkey : call.key = key
  · obtain ⟨rfl, rfl⟩ := h.limits call mem_cons_self hkey
    subst hkey
    have hlive : live call.now (live t (c.buckets call.key)) = live t (c.buckets call.key) := by
      rw [← hsame]
      exact live_live (Nat.le_refl _) _
    obtain ⟨hleft, hends⟩ := count_spec (Nat.lt_of_lt_of_le hnow (ends_mono h.head)) hlive
    rw [if_pos rfl, hanswer, hsame]
    refine ⟨?_, fun n hn => Nat.le_trans (ends_mono h.head) (hends n hn)⟩
    have hone : (if (call.count (live t (c.buckets call.key))).1 = true ∧ call.key = call.key
        then 1 else 0) = (call.count (live t (c.buckets call.key))).1.toNat := by
      cases (call.count (live t (c.buckets call.key))).1 <;> simp
    rw [hone]
    exact hleft
  · rw [if_neg fun heq => hkey heq.symm, if_neg fun h => hkey h.2, hsame]
    exact ⟨Nat.le_refl _, fun _ _ => ends_mono h.head⟩

theorem number_le_left (h : Steady key limit windowSec t calls)
    (hu : u ≤ ends t (windowSec * 1000) (live t (c.buckets key))) :
    c.number key u calls ≤ left limit (live t (c.buckets key)) := by
  -- by induction on the calls, all in the same window until `u`
  induction calls generalizing c t with
  | nil => exact Nat.zero_le _
  | cons call calls ih =>
    rcases Nat.lt_or_ge call.now u with hcall | hcall
    · obtain ⟨hleft, hends⟩ := check_spec h (Nat.lt_of_lt_of_le hcall hu)
      have hrest := ih (c := (c.check call).2) h.tail
        (Nat.le_trans hu (hends _ (Nat.le_refl _)))
      rw [number_cons hcall]
      omega
    · rw [number_eq_zero]
      · exact Nat.zero_le _
      · exact forall_mem_cons.2 ⟨hcall, fun a ha => Nat.le_trans hcall (h.tail.le a ha)⟩

/-- So many requests are admitted until a window after the end of the present one. -/
theorem number_le_two (h : Steady key limit windowSec t calls)
    (hu : u ≤ ends t 0 (live t (c.buckets key)) + windowSec * 1000) :
    c.number key u calls ≤ left limit (live t (c.buckets key)) + limit := by
  induction calls generalizing c t with
  | nil => exact Nat.zero_le _
  | cons call calls ih =>
    rcases Nat.lt_or_ge call.now (ends t 0 (live t (c.buckets key))) with hcall | hcall
    · have hlater : ends t 0 (live t (c.buckets key)) ≤
          ends t (windowSec * 1000) (live t (c.buckets key)) := by
        cases live t (c.buckets key) with
        | none => exact Nat.add_le_add_left (Nat.zero_le _) t
        | some _ => exact Nat.le_refl _
      obtain ⟨hleft, hends⟩ := check_spec h (Nat.lt_of_lt_of_le hcall hlater)
      have hfirst := hends 0 (Nat.zero_le _)
      have hrest := ih (c := (c.check call).2) h.tail (by omega)
      rcases Nat.lt_or_ge call.now u with hnow | hnow
      · rw [number_cons hnow]
        omega
      · rw [number_eq_zero]
        · exact Nat.zero_le _
        · exact forall_mem_cons.2 ⟨hnow, fun a ha => Nat.le_trans hnow (h.tail.le a ha)⟩
    · -- the window is over, and the next one begins with the call
      have hover : live call.now (c.buckets key) = none := by
        rw [← live_live h.head]
        cases hlive : live t (c.buckets key) with
        | none => rfl
        | some b =>
          rw [hlive] at hcall
          exact Option.filter_some_neg (decide_eq_false (Nat.not_lt.2 hcall))
      have hnow : Steady key limit windowSec call.now (call :: calls) :=
        ⟨h.sorted, forall_mem_cons.2 ⟨Nat.le_refl _, h.tail.le⟩, h.limits⟩
      have hle := number_le_left (c := c) hnow (u := u) (by
        rw [hover]
        exact Nat.le_trans hu (Nat.add_le_add_right hcall _))
      rw [hover] at hle
      exact Nat.le_trans hle (Nat.le_add_left _ _)

/-- **Two limits in a window.**  In any time as long as the window of a key, at most twice as many
of its requests are admitted as its limit says, however the counter was left before, whatever
requests come for other keys, and whenever the buckets are cleaned up. -/
theorem admitted_le (h : Steady key limit windowSec 0 calls) (c : FixedWindowCounter) (t : ℕ) :
    (c.admitted key calls).countP (fun call => t ≤ call.now ∧ call.now < t + windowSec * 1000) ≤
      2 * limit := by
  -- by induction on the calls before `t`
  induction calls generalizing c with
  | nil => exact Nat.zero_le _
  | cons call calls ih =>
    have htail : Steady key limit windowSec 0 calls :=
      ⟨h.tail.sorted, fun _ _ => Nat.zero_le _, h.tail.limits⟩
    rcases Nat.lt_or_ge call.now t with hcall | hcall
    · rw [admitted_cons, countP_append]
      have hfirst : (if (c.check call).1 ∧ call.key = key then [call] else []).countP
          (fun call => t ≤ call.now ∧ call.now < t + windowSec * 1000) = 0 := by
        rw [countP_eq_zero]
        intro a ha
        have : a = call := by
          split_ifs at ha
          · exact mem_singleton.1 ha
          · cases ha
        simpa [this] using fun hle => absurd hcall (Nat.not_lt.2 hle)
      rw [hfirst, Nat.zero_add]
      exact ih htail (c.check call).2
    · have hfrom : Steady key limit windowSec t (call :: calls) :=
        ⟨h.sorted, forall_mem_cons.2 ⟨hcall, fun a ha => Nat.le_trans hcall (h.tail.le a ha)⟩,
          h.limits⟩
      have hlive : t ≤ ends t 0 (live t (c.buckets key)) := by
        cases hlive : live t (c.buckets key) with
        | none => exact Nat.le_refl _
        | some b => exact Nat.le_of_lt (lt_of_live hlive).1
      have hle := number_le_two (c := c) hfrom (Nat.add_le_add_right hlive (windowSec * 1000))
      have hleft : left limit (live t (c.buckets key)) ≤ limit := by
        cases live t (c.buckets key) with
        | none => exact Nat.le_refl _
        | some _ => exact Nat.sub_le _ _
      refine Nat.le_trans (countP_mono_left fun a _ ha => ?_) (Nat.le_trans hle (by omega))
      exact decide_eq_true (of_decide_eq_true ha).2

/-- A call with the limit of one request in a second. -/
def callAt (now : ℕ) : Call := ⟨"k", 1, 1, now⟩

theorem steady_callAt {times : List ℕ} (h : times.Pairwise (· ≤ ·)) :
    Steady "k" 1 1 0 (times.map callAt) where
  sorted := pairwise_map.2 h
  le _ _ := Nat.zero_le _
  limits call hcall _ := by
    obtain ⟨now, -, rfl⟩ := mem_map.1 hcall
    exact ⟨rfl, rfl⟩

theorem admitted_le_three :
    (((new 0).admitted "k" ([0, 900, 1100].map callAt)).countP fun call =>
      600 ≤ call.now ∧ call.now < 600 + 1 * 1000) ≤ 2 * 1 :=
  admitted_le (steady_callAt (by decide)) (new 0) 600

/-! ### Not too few -/

/-- The requests of a bucket are among some that were admitted, in the window that it stands for. -/
def Backed (windowMs t : ℕ) (before : List Call) (bucket : Option Bucket) : Prop :=
  ∀ b, bucket = some b →
    b.resetAt ≤ t + windowMs ∧ b.count ≤ before.countP (b.resetAt ≤ ·.now + windowMs)

variable {before : List Call}

theorem Backed.mono (hb : Backed n t before bucket) (h : t ≤ u) : Backed n u before bucket :=
  fun b hbucket => ⟨Nat.le_trans (hb b hbucket).1 (Nat.add_le_add_right h n), (hb b hbucket).2⟩

theorem Backed.live (hb : Backed n t before bucket) (u : ℕ) : Backed n t before (live u bucket) :=
  fun b hbucket => hb b (lt_of_live hbucket).2

theorem Backed.count (hb : Backed call.windowMs call.now before bucket) :
    Backed call.windowMs call.now
      (before ++ if (call.count bucket).1 then [call] else []) (call.count bucket).2 := by
  rcases count_cases call bucket with
    ⟨-, hcount⟩ | ⟨-, -, hcount⟩ | ⟨b, hsome, -, hcount⟩ | ⟨b, hsome, -, hcount⟩
  · rw [hcount, if_neg Bool.false_ne_true, append_nil]
    exact hb
  · rw [hcount, if_pos rfl]
    rintro _ ⟨⟩
    refine ⟨Nat.le_refl _, ?_⟩
    rw [countP_append, countP_singleton, if_pos (decide_eq_true (Nat.le_refl _))]
    exact Nat.le_add_left _ _
  · rw [hcount, if_neg Bool.false_ne_true, append_nil, ← hsome]
    exact hb.live call.now
  · rw [hcount, if_pos rfl]
    rintro _ ⟨⟩
    obtain ⟨hreset, hadmitted⟩ := hb.live call.now b hsome
    refine ⟨hreset, ?_⟩
    rw [countP_append, countP_singleton, if_pos (decide_eq_true hreset)]
    exact Nat.add_le_add_right hadmitted 1

theorem Backed.check (h : Steady key limit windowSec t (call :: calls))
    (hb : Backed (windowSec * 1000) t before (c.buckets key)) :
    Backed (windowSec * 1000) call.now
      (before ++ if (c.check call).1 ∧ call.key = key then [call] else [])
      ((c.check call).2.buckets key) := by
  have hclean : Backed (windowSec * 1000) call.now before
      ((c.maybeCleanup call.now).buckets key) := by
    unfold maybeCleanup
    split_ifs
    · exact hb.mono h.head
    · exact (hb.mono h.head).live call.now
  rw [FixedWindowCounter.check]
  dsimp only
  by_cases hkey : call.key = key
  · obtain ⟨rfl, rfl⟩ := h.limits call mem_cons_self hkey
    subst hkey
    rw [Function.update_self]
    simpa only [and_true, Call.windowMs] using hclean.count
  · rw [Function.update_of_ne fun heq => hkey heq.symm, if_neg fun h => hkey h.2, append_nil]
    exact hclean

theorem Backed.checkAll {last : Call} (h : Steady key limit windowSec t (calls ++ [last]))
    (hb : Backed (windowSec * 1000) t before (c.buckets key)) :
    Backed (windowSec * 1000) last.now (before ++ c.admitted key calls)
      ((c.checkAll calls).2.buckets key) := by
  induction calls generalizing c t before with
  | nil =>
    rw [admitted, FixedWindowCounter.checkAll, filter_nil, append_nil]
    exact hb.mono h.head
  | cons call calls ih =>
    rw [admitted_cons, ← append_assoc]
    exact ih h.tail (hb.check h)

end FixedWindowCounter

end EdgeBase.RateLimit
