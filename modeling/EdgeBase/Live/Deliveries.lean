import EdgeBase.Lib.Runs
import EdgeBase.Live.Hub
import Mathlib.Algebra.BigOperators.Group.List.Basic
import Mathlib.Data.List.Count
import Mathlib.Data.List.Nodup
import Mathlib.Data.List.Perm.Basic

/-!
# Deliveries to the hub

A worker hands a change to the hub under an id, and tries again if it gets no good answer.  The hub
remembers the ids of late, and answers a known one at once.  It notes an id before it serves the
sockets, by some workers side by side; so a failure on the way is not made up for.

* `step` : what can happen to one delivery, among others.
* `ExactlyOnce`, `delivered_once` : a socket gets the change once, if no step meets with a gap.
-/

namespace EdgeBase

open List

namespace LiveHub

/-! ### The ids -/

/-- `RECENT_DELIVERY_TTL_MS`. -/
def recentDeliveryTtlMs : ℕ := 60000

/-- `MAX_RECENT_DELIVERIES`. -/
def maxRecentDeliveries : ℕ := 2048

/-- `MAX_CONCURRENT_LIVE_FANOUT`. -/
def maxConcurrentLiveFanout : ℕ := 16

def pruneRecentDeliveries (now : ℕ) (recent : List (String × ℕ)) : List (String × ℕ) :=
  recent.dropWhile fun r => recentDeliveryTtlMs < now - r.2

/-- `isDuplicateDelivery`: whether an id is known, and what is known after. -/
def isDuplicateDelivery (id : String) (now : ℕ) (recent : List (String × ℕ)) :
    Bool × List (String × ℕ) :=
  if id = "" then (false, recent)
  else
    let recent := pruneRecentDeliveries now recent
    if recent.any (·.1 == id) then (true, recent)
    else
      let recent := recent ++ [(id, now)]
      (false, recent.drop (recent.length - maxRecentDeliveries))

/-! ### The parties -/

/-- A change that is handed to the hub under an id that is drawn. -/
structure Delivery where
  id : String
  channel : String
  table : String
  change : Change
  drawn : id ≠ ""

def Delivery.frame (d : Delivery) : Row := dbChange d.channel d.table d.change

/-- `forEachSocketBounded` at work, for an attempt of the sender. -/
structure Fanout where
  attempt : ℕ
  /-- The sockets that no worker has taken yet. -/
  waiting : List ℕ
  /-- The sockets whose callbacks run. -/
  busy : List ℕ
  deriving DecidableEq

def Fanout.start (attempt : ℕ) (sockets : List ℕ) : Fanout where
  attempt
  waiting := sockets.drop maxConcurrentLiveFanout
  busy := sockets.take maxConcurrentLiveFanout

/-- A worker whose callback has ended takes the next socket; one whose callback has thrown is
gone. -/
def Fanout.next (f : Fanout) (ws : ℕ) (threw : Bool) : Fanout :=
  if threw then { f with busy := f.busy.erase ws }
  else { f with busy := f.busy.erase ws ++ f.waiting.take 1, waiting := f.waiting.drop 1 }

/-- How often a socket is still to be served by a fan-out. -/
def Fanout.pending (f : Fanout) (ws : ℕ) : ℕ := (f.waiting ++ f.busy).count ws

/-- `sendToDatabaseLiveDO`. -/
inductive Sender where
  | idle
  /-- An attempt waits for its answer; `reply` says whether the one on its way is good. -/
  | calling (attempt : ℕ) (reply : Option Bool)
  | done
  | failed
  deriving DecidableEq

structure DeliveryState where
  clock : ℕ
  recent : List (String × ℕ)
  sockets : List (ℕ × WSMeta)
  /-- The requests that have not reached the hub. -/
  requests : List ℕ
  fanouts : List Fanout
  sender : Sender
  /-- What the sockets have been sent, of this delivery. -/
  sent : List (ℕ × Row)

inductive DeliveryEvent where
  | tick (ms : ℕ)
  /-- A socket is opened or changed, or closed. -/
  | socket (ws : ℕ) (state : Option WSMeta)
  /-- Another delivery, a batch or a broadcast reaches the hub. -/
  | other (id : String)
  | send
  /-- A request of the sender reaches the hub. -/
  | arrive (attempt : ℕ)
  /-- The callback of a socket ends; the authority has said something. -/
  | finish (fanout ws : ℕ) (authority : Authority)
  | answer
  /-- The sender gets an error instead. -/
  | lose
  /-- The hub is evicted from memory. -/
  | crash

namespace Deliveries

variable (text : NumberText) (rule : ReadRule) (d : Delivery)

/-- The next attempt of two, or the error. -/
def retry (s : DeliveryState) (attempt : ℕ) : DeliveryState :=
  if attempt + 1 < 2 then
    { s with
      sender := .calling (attempt + 1) none
      requests := s.requests ++ [attempt + 1] }
  else { s with sender := .failed }

/-- An answer is sent to the attempt that waits for it. -/
def reply (s : DeliveryState) (attempt : ℕ) (ok : Bool) : DeliveryState :=
  { s with
    sender :=
      match s.sender with
      | .calling current none => if current = attempt then .calling current (some ok) else s.sender
      | sender => sender }

/-- A request reaches the hub: `handleInternalEvent` up to its first wait. -/
def receive (s : DeliveryState) (attempt : ℕ) : DeliveryState :=
  match isDuplicateDelivery d.id s.clock s.recent with
  | (true, recent) => reply { s with recent } attempt true
  | (false, recent) =>
    let sockets := s.sockets.map Prod.fst
    if sockets.isEmpty then reply { s with recent } attempt true
    else
      { s with recent, fanouts := s.fanouts ++ [Fanout.start attempt sockets] }

def finish (s : DeliveryState) (n ws : ℕ) (authority : Authority) : DeliveryState :=
  match s.fanouts[n]? with
  | none => s
  | some f =>
    if ws ∈ f.busy then
      -- a closed socket is sent nothing
      let (frames, threw) := (s.sockets.lookup ws).elim ([], false)
        (sendEvent text rule authority d.channel d.table d.change)
      let f' := Fanout.next f ws threw
      let ended := f'.busy.isEmpty
      let s' := { s with
        sent := s.sent ++ frames.map (ws, ·)
        fanouts := if ended then s.fanouts.eraseIdx n else s.fanouts.set n f' }
      if threw then reply s' f.attempt false
      else if ended then reply s' f.attempt true
      else s'
    else s

def step (s : DeliveryState) : DeliveryEvent → DeliveryState
  | .tick ms => { s with clock := s.clock + ms }
  | .socket ws (some state) => { s with sockets := Assoc.set s.sockets ws state }
  | .socket ws none => { s with sockets := Assoc.restrict (· != ws) s.sockets }
  | .other id =>
    if id = d.id then s else { s with recent := (isDuplicateDelivery id s.clock s.recent).2 }
  | .send =>
    if s.sender = .idle then { s with sender := .calling 0 none, requests := [0] } else s
  | .arrive attempt =>
    if attempt ∈ s.requests then
      receive d { s with requests := s.requests.erase attempt } attempt
    else s
  | .finish n ws authority => finish text rule d s n ws authority
  | .answer =>
    match s.sender with
    | .calling _ (some true) => { s with sender := .done }
    | .calling attempt (some false) => retry s attempt
    | _ => s
  | .lose =>
    match s.sender with
    | .calling attempt _ => retry s attempt
    | _ => s
  | .crash => { s with recent := [], fanouts := [] }

def init : DeliveryState where
  clock := 0
  recent := []
  sockets := []
  requests := []
  fanouts := []
  sender := .idle
  sent := []

/-! ### Once -/

section Once

variable (s : DeliveryState) (ws : ℕ)

def got : ℕ := s.sent.count (ws, d.frame)

/-- How often a socket is still to be served. -/
def pending : ℕ := (s.fanouts.map (Fanout.pending · ws)).sum

/-- A socket is subscribed, authorised and unfiltered for the change. -/
def Wants : Prop :=
  ∃ socket ∈ s.sockets.lookup ws,
    sendEvent text rule .active d.channel d.table d.change socket = ([d.frame], false)

/-- The sender has been told, or is about to be told, that the change has been delivered. -/
def Assured : Prop :=
  match s.sender with
  | .done => True
  | .calling _ (some true) => True
  | _ => False

/-- When the sender has ended without error and the hub is no longer at work, a socket has got the
change once. -/
def ExactlyOnce : Prop := s.sender = .done → s.fanouts = [] → got d s ws = 1

def Throws (authority : Authority) (ws : ℕ) : Prop :=
  ∃ socket ∈ s.sockets.lookup ws,
    (sendEvent text rule authority d.channel d.table d.change socket).2 = true

/-- A step that does not come between a socket and the change: the hub knows the id of what it has
begun, the authority answers, the last worker is not lost while the socket waits, and the hub is not
evicted while it has still to serve the socket but the sender relies on it. -/
def Meets : DeliveryEvent → Prop
  | .arrive attempt =>
    attempt ∈ s.requests → (isDuplicateDelivery d.id s.clock s.recent).1 = true ∨
      pending s ws = 0 ∧ got d s ws = 0
  | .finish n other authority =>
    (other = ws → authority = .active) ∧
      ∀ f ∈ s.fanouts[n]?, Throws text rule d s authority other → ws ∈ f.waiting →
        f.busy.erase other ≠ []
  | .crash => pending s ws ≠ 0 → ¬Assured s
  | _ => True

end Once

/-! ### The invariant -/

def Known (s : DeliveryState) : Prop := d.id ∈ s.recent.map Prod.fst

/-- A socket has got the change or is to be served, but not both; and one of both is so if the hub
has begun. -/
structure Inv (s : DeliveryState) (ws : ℕ) : Prop where
  keys : (s.sockets.map Prod.fst).Nodup
  idle : s.sender = .idle → s.requests = [] ∧ s.fanouts = []
  atMost : got d s ws + pending s ws ≤ 1
  begun : Known d s ∨ s.fanouts ≠ [] ∨ Assured s → got d s ws + pending s ws = 1

variable {text rule d} {s : DeliveryState} {ws : ℕ}

theorem mem_of_isDuplicateDelivery {id : String} {now : ℕ} {recent : List (String × ℕ)}
    (h : (isDuplicateDelivery id now recent).1 = true) : id ∈ recent.map Prod.fst := by
  unfold isDuplicateDelivery at h
  dsimp only at h
  split_ifs at h with hid hknown
  obtain ⟨r, hr, heq⟩ := any_eq_true.1 hknown
  exact mem_map.2 ⟨r, (dropWhile_sublist _).subset hr, by simpa using heq⟩

theorem known_of_isDuplicateDelivery {id id' : String} {now : ℕ} {recent : List (String × ℕ)}
    (h : id' ∈ (isDuplicateDelivery id now recent).2.map Prod.fst) :
    id' = id ∨ id' ∈ recent.map Prod.fst := by
  have hpruned : ∀ r ∈ pruneRecentDeliveries now recent, r ∈ recent :=
    fun r hr => (dropWhile_sublist _).subset hr
  unfold isDuplicateDelivery at h
  dsimp only at h
  obtain ⟨r, hr, rfl⟩ := mem_map.1 h
  split_ifs at hr with hid hknown
  · exact .inr (mem_map_of_mem hr)
  · exact .inr (mem_map_of_mem (hpruned r hr))
  · dsimp only at hr
    have hmem : r ∈ pruneRecentDeliveries now recent ++ [(id, now)] := mem_of_mem_drop hr
    rcases mem_append.1 hmem with hold | hnew
    · exact .inr (mem_map_of_mem (hpruned r hold))
    · rw [mem_singleton.1 hnew]
      exact .inl rfl

@[simp] theorem got_reply (attempt : ℕ) (ok : Bool) :
    got d (reply s attempt ok) ws = got d s ws := rfl

@[simp] theorem pending_reply (attempt : ℕ) (ok : Bool) :
    pending (reply s attempt ok) ws = pending s ws := rfl

theorem sender_reply_idle {attempt : ℕ} {ok : Bool}
    (h : (reply s attempt ok).sender = .idle) : s.sender = .idle := by
  unfold reply at h
  dsimp only at h
  split at h
  · next heq =>
    split_ifs at h
    rw [h] at heq
    cases heq
  · exact h

theorem Inv.reply (h : Inv d s ws) (hbegun : got d s ws + pending s ws = 1) (attempt : ℕ)
    (ok : Bool) : Inv d (reply s attempt ok) ws where
  keys := h.keys
  idle hidle := h.idle (sender_reply_idle hidle)
  atMost := h.atMost
  begun _ := hbegun

/-! ### What happens in the hub -/

theorem count_map_pair (frames : List Row) (other : ℕ) (frame : Row) :
    (frames.map (other, ·)).count (ws, frame) = if other = ws then frames.count frame else 0 := by
  split_ifs with h
  · rw [h]
    exact count_map_of_injective _ _ (Prod.mk_right_injective ws) frame
  · refine count_eq_zero.2 fun hmem => ?_
    obtain ⟨row, -, heq⟩ := mem_map.1 hmem
    exact h (congrArg Prod.fst heq)

theorem pending_perm (ws : ℕ) {fanouts fanouts' : List Fanout} (h : fanouts.Perm fanouts') :
    (fanouts.map (Fanout.pending · ws)).sum = (fanouts'.map (Fanout.pending · ws)).sum :=
  (h.map _).sum_eq

theorem pending_next (ws : ℕ) {f : Fanout} {other : ℕ} (hbusy : other ∈ f.busy) (threw : Bool) :
    (f.next other threw).pending ws + (if other = ws then 1 else 0) = f.pending ws := by
  have herase : (f.busy.erase other).count ws + (if other = ws then 1 else 0) =
      f.busy.count ws := by
    by_cases h : other = ws
    · have hpos : 0 < f.busy.count ws := count_pos_iff.2 (h ▸ hbusy)
      rw [h, count_erase_self, if_pos rfl]
      omega
    · rw [count_erase_of_ne (Ne.symm h), if_neg h, Nat.add_zero]
  unfold Fanout.next Fanout.pending
  cases threw with
  | true =>
    simp only [if_true, count_append]
    omega
  | false =>
    have hwaiting : (f.waiting.take 1).count ws + (f.waiting.drop 1).count ws =
        f.waiting.count ws := by
      rw [← count_append, take_append_drop]
    simp only [Bool.false_eq_true, if_false, count_append]
    omega

theorem pending_over {f : Fanout} {other : ℕ} {threw : Bool}
    (hover : (f.next other threw).busy = [])
    (hlast : threw = true → ws ∈ f.waiting → f.busy.erase other ≠ []) :
    (f.next other threw).pending ws = 0 := by
  unfold Fanout.next at hover ⊢
  unfold Fanout.pending
  split_ifs at hover ⊢ with hthrew
  · have hnot : ws ∉ f.waiting := fun hmem => hlast hthrew hmem hover
    rw [count_append, hover, count_eq_zero.2 hnot]
    rfl
  · obtain ⟨hbusy, hwaiting⟩ := append_eq_nil_iff.1 hover
    have hnil : f.waiting = [] := by
      cases hw : f.waiting with
      | nil => rfl
      | cons a as => simp [hw] at hwaiting
    simp [hnil, hbusy]

theorem pending_replace (ws : ℕ) {fanouts : List Fanout} {n : ℕ} {f : Fanout} (hn : fanouts[n]? = some f)
    (g : Fanout) : ((fanouts.set n g).map (Fanout.pending · ws)).sum + f.pending ws =
        (fanouts.map (Fanout.pending · ws)).sum + g.pending ws ∧
      ((fanouts.eraseIdx n).map (Fanout.pending · ws)).sum + f.pending ws =
        (fanouts.map (Fanout.pending · ws)).sum := by
  obtain ⟨hlt, rfl⟩ := List.getElem?_eq_some_iff.1 hn
  have hset := pending_perm ws (set_perm_cons_eraseIdx hlt g)
  have hget := pending_perm ws (getElem_cons_eraseIdx_perm hlt)
  rw [map_cons, sum_cons] at hset hget
  omega

theorem sent_of_wants (hwants : Wants text rule d s ws) {other : ℕ} {authority : Authority}
    (hactive : other = ws → authority = .active) :
    ∃ frames threw, (s.sockets.lookup other).elim ([], false)
        (sendEvent text rule authority d.channel d.table d.change) = (frames, threw) ∧
      ((frames.map (other, ·)).count (ws, d.frame) = if other = ws then 1 else 0) ∧
      (threw = true → Throws text rule d s authority other) := by
  obtain ⟨socket, hlookup, hsend⟩ := hwants
  by_cases h : other = ws
  · rw [hactive h, h, hlookup]
    refine ⟨[d.frame], false, hsend, ?_, nofun⟩
    rw [count_map_pair]
    simp
  · cases hother : s.sockets.lookup other with
    | none => exact ⟨[], false, rfl, by simp [h], nofun⟩
    | some socket' =>
      refine ⟨_, _, rfl, ?_, fun hthrew => ⟨socket', hother, hthrew⟩⟩
      rw [count_map_pair, if_neg h, if_neg h]

/-! ### Steps -/

theorem pending_start (attempt : ℕ) (sockets : List ℕ) :
    (Fanout.start attempt sockets).pending ws = sockets.count ws := by
  unfold Fanout.start Fanout.pending
  rw [count_append, Nat.add_comm, ← count_append, take_append_drop]

theorem Inv.receive (h : Inv d s ws) (hidle : s.sender ≠ .idle) (hwants : Wants text rule d s ws)
    (attempt : ℕ) (hmeets : (isDuplicateDelivery d.id s.clock s.recent).1 = true ∨
      pending s ws = 0 ∧ got d s ws = 0) : Inv d (Deliveries.receive d s attempt) ws := by
  unfold Deliveries.receive
  cases hdup : isDuplicateDelivery d.id s.clock s.recent with
  | mk duplicate recent =>
    rw [hdup] at hmeets
    cases duplicate with
    | true =>
      have hknown : Known d s := mem_of_isDuplicateDelivery (by rw [hdup])
      have hone := h.begun (.inl hknown)
      have hrecent : Inv d { s with recent } ws := ⟨h.keys, h.idle, h.atMost, fun _ => hone⟩
      exact hrecent.reply hone attempt true
    | false =>
      obtain ⟨hpending, hgot⟩ := hmeets.resolve_left Bool.false_ne_true
      obtain ⟨socket, hlookup, -⟩ := hwants
      have hmem : ws ∈ s.sockets.map Prod.fst :=
        mem_map_of_mem (Assoc.mem_of_lookup hlookup)
      have hsome : ¬(s.sockets.map Prod.fst).isEmpty = true := by
        rw [List.isEmpty_iff]
        exact ne_nil_of_mem hmem
      dsimp only
      rw [if_neg hsome]
      have hone : got d s ws + pending { s with
          recent
          fanouts := s.fanouts ++ [Fanout.start attempt (s.sockets.map Prod.fst)] } ws = 1 := by
        unfold pending at hpending ⊢
        rw [hgot, map_append, sum_append, hpending, map_singleton,
          sum_singleton, pending_start, count_eq_one_of_mem h.keys hmem]
      exact
        { keys := h.keys
          idle := fun heq => absurd heq hidle
          atMost := hone.le
          begun := fun _ => hone }

/-- The callback of a socket ends: the sum of what it has got and of what is to come stays. -/
theorem Inv.finish (h : Inv d s ws) (hidle : s.sender ≠ .idle) (hwants : Wants text rule d s ws)
    {n other : ℕ} {authority : Authority} (hactive : other = ws → authority = .active)
    (hlast : ∀ f ∈ s.fanouts[n]?, Throws text rule d s authority other →
      ws ∈ f.waiting → f.busy.erase other ≠ []) :
    Inv d (Deliveries.finish text rule d s n other authority) ws := by
  unfold Deliveries.finish
  cases hn : s.fanouts[n]? with
  | none => exact h
  | some f =>
    dsimp only
    by_cases hbusy : other ∈ f.busy
    · rw [if_pos hbusy]
      obtain ⟨frames, threw, heq, hcount, hthrows⟩ := sent_of_wants hwants hactive
      rw [heq]
      dsimp only
      have hbegun : s.fanouts ≠ [] := fun hnil => by
        rw [hnil] at hn
        cases hn
      have hone := h.begun (.inr (.inl hbegun))
      have hnext := pending_next ws hbusy threw
      obtain ⟨hset, herase⟩ := pending_replace ws hn (f.next other threw)
      generalize hs' : ({ s with
        sent := s.sent ++ frames.map (other, ·)
        fanouts := if (f.next other threw).busy.isEmpty then s.fanouts.eraseIdx n
          else s.fanouts.set n (f.next other threw) } : DeliveryState) = s'
      have hsum : got d s' ws + pending s' ws = 1 := by
        subst hs'
        unfold got pending at hone ⊢
        rw [count_append, hcount]
        by_cases hover : (f.next other threw).busy = []
        · have hzero := pending_over hover fun hthrew => hlast f hn (hthrows hthrew)
          dsimp only
          rw [hover, isEmpty_nil, if_pos rfl]
          omega
        · have hnot : ¬(f.next other threw).busy.isEmpty = true := by
            rwa [List.isEmpty_iff]
          dsimp only
          rw [if_neg hnot]
          omega
      have hinv : Inv d s' ws := by
        refine ⟨?_, fun hidle' => ?_, hsum.le, fun _ => hsum⟩
        · subst hs'
          exact h.keys
        · subst hs'
          exact absurd hidle' hidle
      split_ifs
      · exact hinv.reply hsum f.attempt false
      · exact hinv.reply hsum f.attempt true
      · exact hinv
    · rw [if_neg hbusy]
      exact h

theorem Inv.retry (h : Inv d s ws) (attempt : ℕ) : Inv d (Deliveries.retry s attempt) ws := by
  unfold Deliveries.retry
  split_ifs with hleft
  all_goals
    refine ⟨h.keys, nofun, h.atMost, ?_⟩
    rintro (hknown | hfanouts | hassured)
    · exact h.begun (.inl hknown)
    · exact h.begun (.inr (.inl hfanouts))
    · exact False.elim hassured

/-- Every step keeps the invariant, if it meets the condition and the socket wants the change. -/
theorem Inv.step (h : Inv d s ws) {e : DeliveryEvent}
    (hwants : s.sender ≠ .idle → Wants text rule d s ws) (hmeets : Meets text rule d s ws e) :
    Inv d (Deliveries.step text rule d s e) ws := by
  cases e with
  | tick ms => exact ⟨h.keys, h.idle, h.atMost, h.begun⟩
  | socket other state =>
    cases state with
    | some state => exact ⟨Assoc.nodup_keys_set h.keys other state, h.idle, h.atMost, h.begun⟩
    | none =>
      exact ⟨h.keys.sublist (filter_sublist.map _), h.idle, h.atMost, h.begun⟩
  | other id =>
    unfold Deliveries.step
    dsimp only
    split_ifs with hid
    · exact h
    · refine ⟨h.keys, h.idle, h.atMost, fun hbegun => h.begun (hbegun.imp_left fun hknown => ?_)⟩
      exact (known_of_isDuplicateDelivery hknown).resolve_left (Ne.symm hid)
  | send =>
    unfold Deliveries.step
    dsimp only
    split_ifs with hidle
    · refine ⟨h.keys, nofun, h.atMost, ?_⟩
      rintro (hknown | hfanouts | hassured)
      · exact h.begun (.inl hknown)
      · exact h.begun (.inr (.inl hfanouts))
      · exact False.elim hassured
    · exact h
  | arrive attempt =>
    unfold Deliveries.step
    dsimp only
    split_ifs with hrequest
    · have hidle : s.sender ≠ .idle := fun hidle => by
        rw [(h.idle hidle).1] at hrequest
        exact not_mem_nil hrequest
      have hrest : Inv d { s with requests := s.requests.erase attempt } ws :=
        ⟨h.keys, fun heq => absurd heq hidle, h.atMost, h.begun⟩
      exact hrest.receive hidle (hwants hidle) attempt (hmeets hrequest)
    · exact h
  | finish n other authority =>
    by_cases hidle : s.sender = .idle
    · unfold Deliveries.step Deliveries.finish
      dsimp only
      rw [(h.idle hidle).2]
      exact h
    · exact h.finish hidle (hwants hidle) hmeets.1 hmeets.2
  | answer =>
    unfold Deliveries.step
    dsimp only
    split
    · next heq =>
      have hassured : Assured s := by rw [Assured, heq]; trivial
      exact ⟨h.keys, nofun, h.atMost, fun _ => h.begun (.inr (.inr hassured))⟩
    · next attempt _ => exact h.retry attempt
    · exact h
  | lose =>
    unfold Deliveries.step
    dsimp only
    split
    · next attempt _ _ => exact h.retry attempt
    · exact h
  | crash =>
    have hlost : pending (Deliveries.step text rule d s .crash) ws = 0 := rfl
    have hgot : got d s ws + 0 ≤ 1 := Nat.le_trans (Nat.le_add_right _ _) h.atMost
    refine ⟨h.keys, fun hidle => ⟨(h.idle hidle).1, rfl⟩, hgot, ?_⟩
    rintro (hknown | hfanouts | hassured)
    · cases hknown
    · exact absurd rfl hfanouts
    · have hnone : pending s ws = 0 := by
        by_contra hpending
        exact hmeets hpending hassured
      have hone := h.begun (.inr (.inr hassured))
      rw [hnone] at hone
      rw [hlost]
      exact hone

theorem Inv.init : Inv d init ws where
  keys := .nil
  idle _ := ⟨rfl, rfl⟩
  atMost := Nat.zero_le 1
  begun h := by
    rcases h with hknown | hfanouts | hassured
    · cases hknown
    · exact absurd rfl hfanouts
    · exact False.elim hassured

/-- **Deliveries.**  However the attempts of the sender fail, requests come late and other
deliveries come in between: a socket that wants the change all the while gets it exactly once, if no
step comes between the socket and the change. -/
theorem delivered_once (text : NumberText) (rule : ReadRule) (d : Delivery) (ws : ℕ)
    {es : List DeliveryEvent} (hwants : Runs.Along (Deliveries.step text rule d)
      (fun s _ => s.sender ≠ .idle → Wants text rule d s ws) init es)
    (hmeets : Runs.Along (Deliveries.step text rule d)
      (fun s e => Meets text rule d s ws e) init es) :
    ExactlyOnce d (Runs.last (Deliveries.step text rule d) init es) ws := by
  have hinv := (Runs.Along.of_invariant (I := fun s => Inv d s ws) (Q := fun _ _ => True)
    (Runs.Along.and.2 ⟨hwants, hmeets⟩) .init (fun _ _ h hstep => h.step hstep.1 hstep.2)
    fun _ _ _ _ => trivial).2
  intro hdone hquiet
  have hassured : Assured (Runs.last (Deliveries.step text rule d) init es) := by
    rw [Assured, hdone]
    trivial
  have hone := hinv.begun (.inr (.inr hassured))
  unfold pending at hone
  rwa [hquiet] at hone

/-! ### Two runs -/

section Decide

variable (text : NumberText) (rule : ReadRule) (d : Delivery) (s : DeliveryState) (ws : ℕ)

instance : Decidable (Wants text rule d s ws) := by
  unfold Wants
  infer_instance

instance (authority : Authority) : Decidable (Throws text rule d s authority ws) := by
  unfold Throws
  infer_instance

instance : Decidable (Assured s) := by
  unfold Assured
  split <;> infer_instance

instance (e : DeliveryEvent) : Decidable (Meets text rule d s ws e) := by
  unfold Meets
  split <;> infer_instance

end Decide

def noNumbers : NumberText := ⟨fun _ => "", fun _ => none⟩

def welcome : Delivery where
  id := "e7f2"
  channel := "dblive:shared:posts"
  table := "posts"
  change := ⟨"added", "p1", some [("id", .str "p1"), ("title", .str "Welcome")],
    "2024-06-01T00:00:00.000Z"⟩
  drawn := by decide

theorem posts_named : ∀ channel ∈ ["dblive:shared:posts"], channel ≠ "" := by decide

/-- A user who follows the posts that pass some filters. -/
def follower (filters : List Json) : WSMeta where
  authenticated := true
  userId := some "u1"
  sessionId := some "s1"
  role := none
  subscribedChannels := ["dblive:shared:posts"]
  channelFilters := [("dblive:shared:posts", filters)]
  channelOrFilters := []
  supportsBatch := false
  named := posts_named

/-- The sender gets no answer, and the hub knows the id of its second request. -/
def answeredLate : List DeliveryEvent :=
  [.socket 0 (some (follower [])), .send, .arrive 0, .finish 0 0 .active, .lose, .arrive 1, .answer]

theorem answeredLate_once :
    (Runs.last (step noNumbers .undefined welcome) init answeredLate).sender = .done ∧
      ExactlyOnce welcome (Runs.last (step noNumbers .undefined welcome) init answeredLate) 0 :=
  ⟨by decide +kernel, delivered_once noNumbers .undefined welcome 0 (by decide +kernel)
    (by decide +kernel)⟩

/-- A condition that cannot be checked, as its value has no text. -/
def textless : Json := .arr [.str "title", .str "contains", .obj [("toString", .num 1)]]

/-- Sixteen sockets whose filters throw take all workers with them. -/
def crowded : List DeliveryEvent :=
  (List.range 16).map (fun ws => .socket ws (some (follower [textless]))) ++
    [.socket 16 (some (follower [])), .send, .arrive 0] ++
    (List.range 16).map (fun ws => .finish 0 ws .active) ++ [.answer, .arrive 1, .answer]

/-- The second request is answered as a duplicate, and the last socket gets nothing. -/
theorem crowded_not_once : ¬∀ (text : NumberText) (rule : ReadRule) (d : Delivery) (ws : ℕ)
    (es : List DeliveryEvent),
    Runs.Along (step text rule d) (fun s _ => s.sender ≠ .idle → Wants text rule d s ws) init es →
      ExactlyOnce d (Runs.last (step text rule d) init es) ws := by
  intro h
  have hwants : Runs.Along (step noNumbers .undefined welcome)
      (fun s _ => s.sender ≠ .idle → Wants noNumbers .undefined welcome s 16) init crowded := by
    decide +kernel
  have hdone : (Runs.last (step noNumbers .undefined welcome) init crowded).sender = .done := by
    decide +kernel
  have hquiet : (Runs.last (step noNumbers .undefined welcome) init crowded).fanouts = [] := by
    decide +kernel
  have hnothing : got welcome (Runs.last (step noNumbers .undefined welcome) init crowded) 16 = 0 :=
    by decide +kernel
  have hone := h noNumbers .undefined welcome 16 crowded hwants hdone hquiet
  rw [hnothing] at hone
  exact absurd hone (by decide)

end Deliveries

end LiveHub

end EdgeBase
