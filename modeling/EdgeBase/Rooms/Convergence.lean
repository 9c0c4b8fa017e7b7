import EdgeBase.Lib.Deltas
import EdgeBase.Lib.Runs
import EdgeBase.Rooms.Copies

/-!
# The copies converge

The delta that waits always tells the present values of its keys, and the copy of a client that has
joined differs from the state in these keys at most.  So a flush makes the copies equal to the
state, as long as the client reads every word of the delta as it was meant: the key of an entry is a
path, and `null` deletes.

* `encodes_computeDelta`, `covers_computeDelta` : what an update puts into its delta.
* `get_applyDelta` : what a client makes of a delta.
* `converged_run` : after each flush the copies are equal to the state.
-/

namespace EdgeBase

open List Option Json Assoc

namespace Rooms

open Deltas

/-! ## Deltas on the wire -/

/-- A value stands for itself and `null` for none, and this is how the client reads them. -/
def wire : Codec Json Json where
  encode := fun v => v.getD .null
  decode := fun word => if word = .null then none else some word

/-- A key that the client reads as the name of a property. -/
def SimpleKey (key : String) : Prop := '.' ∉ key.toList ∧ key ∉ unsafeKeys

/-- An update changes neither the prototype nor drops a key whose name every object inherits. -/
def Visible (oldState newState : Json) : Prop :=
  ∀ key, oldState.get key ≠ newState.get key →
    key ≠ "__proto__" ∧ (newState.get key = none → key ∉ inheritedNames)

def words (delta : Option Row) : Delta String Json := (Json.obj (delta.getD [])).get

@[simp] theorem words_none : words none = fun _ => none := by
  funext key
  rw [words, get_obj]
  rfl

theorem words_some (delta : Row) (key : String) : words (some delta) key = delta.lookup key := by
  rw [words, getD_some, get_obj]

variable {oldState newState : Json}

theorem has_eq_false {state : Json} {key : String} :
    has state key = false ↔ state.get key = none ∧ key ∉ inheritedNames := by
  simp [has]

theorem mem_changes {b : String × Json} : b ∈ changes oldState newState ↔
    b ∈ newState.entries ∧ written oldState b.1 ≠ written newState b.1 ∨
      ∃ v, (b.1, v) ∈ oldState.entries ∧ has newState b.1 = false ∧ b.2 = .null := by
  obtain ⟨key, word⟩ := b
  simp only [changes, mem_append, mem_filter, decide_eq_true_eq, List.mem_map,
    Bool.not_eq_true', Prod.mk.injEq]
  refine or_congr Iff.rfl ⟨?_, ?_⟩
  · rintro ⟨⟨key', v⟩, ⟨hmem, hhas⟩, rfl, rfl⟩
    exact ⟨v, hmem, hhas, rfl⟩
  · rintro ⟨v, hmem, hhas, rfl⟩
    exact ⟨(key, v), ⟨hmem, hhas⟩, rfl, rfl⟩

theorem mem_of_words {key : String} {word : Json}
    (h : words (computeDelta oldState newState) key = some word) :
    (key, word) ∈ changes oldState newState := by
  unfold computeDelta at h
  split_ifs at h
  · rw [words_none] at h
    cases h
  · rw [words_some] at h
    exact (mem_filter.1 (mem_of_lookup h)).1

theorem get_ne_of_words {key : String} (h : words (computeDelta oldState newState) key ≠ none) :
    oldState.get key ≠ newState.get key := by
  obtain ⟨word, hword⟩ := ne_none_iff_exists'.1 h
  intro heq
  rcases mem_changes.1 (mem_of_words hword) with ⟨-, hwritten⟩ | ⟨v, hmem, hhas, -⟩
  · exact hwritten (by simp [written, heq])
  · rw [(has_eq_false.1 hhas).1] at heq
    simpa using lookup_eq_none_iff.1 heq (key, v) hmem

theorem words_ne_none {b : String × Json} (h : b ∈ changes oldState newState)
    (hproto : b.1 ≠ "__proto__") : words (computeDelta oldState newState) b.1 ≠ none := by
  have hne : changes oldState newState ≠ [] := ne_nil_of_mem h
  rw [computeDelta, if_neg hne, words_some]
  intro hnone
  have hmem : b ∈ (changes oldState newState).filter (·.1 ≠ "__proto__") :=
    mem_filter.2 ⟨h, by simpa using hproto⟩
  simpa using lookup_eq_none_iff.1 hnone b hmem

theorem encodes_computeDelta (oldState : Json) (newState : Row) :
    wire.Encodes (words (computeDelta oldState (.obj newState))) (Json.obj newState).get := by
  intro key word hword
  rcases mem_changes.1 (mem_of_words hword) with ⟨hmem, -⟩ | ⟨-, -, hhas, hnull⟩
  · have hget : (Json.obj newState).get key = some word := get_obj_of_mem hmem
    rw [hget]
    rfl
  · rw [(has_eq_false.1 hhas).1]
    exact hnull

theorem covers_computeDelta (h : Visible oldState newState) :
    Covers (words (computeDelta oldState newState)) oldState.get newState.get := by
  intro key hnone
  by_contra hne
  obtain ⟨hproto, hinherited⟩ := h key hne
  cases hnew : newState.get key with
  | some v =>
    have hwritten : written oldState key ≠ written newState key := by
      simpa [written, hproto] using hne
    exact words_ne_none (mem_changes.2 (.inl ⟨mem_entries hnew, hwritten⟩)) hproto hnone
  | none =>
    cases hold : oldState.get key with
    | some v =>
      have hhas : has newState key = false := has_eq_false.2 ⟨hnew, hinherited hnew⟩
      have hmem : (key, Json.null) ∈ changes oldState newState :=
        mem_changes.2 (.inr ⟨v, mem_entries hold, hhas, rfl⟩)
      exact words_ne_none hmem hproto hnone
    | none => exact hne (hold.trans hnew.symm)

/-! ## What a client makes of a delta -/

theorem pathParts_of_simple {key : String} (h : '.' ∉ key.toList) : pathParts key = [key] := by
  rw [pathParts, splitOn_eq_singleton h, map_singleton, String.ofList_toList]

theorem deepSet_obj {key : String} (h : SimpleKey key) (fields : Row) (value : Json) :
    deepSet (.obj fields) key value = .obj (if value = .null then restrict (· ≠ key) fields
        else Assoc.set fields key value) := by
  obtain ⟨hdot, hsafe⟩ := h
  rw [deepSet, pathParts_of_simple hdot, if_neg (by simpa using hsafe), setAt]
  split_ifs <;> rfl

theorem get_deepSet {key : String} (h : SimpleKey key) (fields : Row) (value : Json) (k : String) :
    (deepSet (.obj fields) key value).get k =
      if k = key then wire.decode value else (Json.obj fields).get k := by
  rw [deepSet_obj h, get_obj, get_obj]
  by_cases hvalue : value = .null
  · rw [if_pos hvalue, lookup_restrict]
    by_cases hk : k = key <;> simp [hk, wire, hvalue]
  · rw [if_neg hvalue]
    by_cases hk : k = key
    · rw [hk, lookup_set_self]
      simp [wire, hvalue]
    · rw [if_neg hk, lookup_set_of_ne _ hk]

theorem get_foldl_deepSet {d : Delta String Json} {xs : Row} (hxs : ∀ b ∈ xs, d b.1 = some b.2)
    (hsimple : ∀ b ∈ xs, SimpleKey b.1) (fields : Row) :
    ∃ fields', xs.foldl (fun state b => deepSet state b.1 b.2) (.obj fields) = .obj fields' ∧
      ∀ key, (Json.obj fields').get key =
        if key ∈ xs.map Prod.fst then wire.apply d (Json.obj fields).get key
        else (Json.obj fields).get key := by
  induction xs generalizing fields with
  | nil => exact ⟨fields, rfl, fun key => rfl⟩
  | cons b xs ih =>
    obtain ⟨hb, hxs⟩ := forall_mem_cons.1 hxs
    obtain ⟨hkey, hsimple⟩ := forall_mem_cons.1 hsimple
    obtain ⟨fields₁, hfields₁⟩ : ∃ fields₁, deepSet (.obj fields) b.1 b.2 = .obj fields₁ :=
      ⟨_, deepSet_obj hkey fields b.2⟩
    obtain ⟨fields', hfields', hget⟩ := ih hxs hsimple fields₁
    refine ⟨fields', by rw [foldl_cons, hfields₁, hfields'], fun key => ?_⟩
    rw [hget, ← hfields₁, get_deepSet hkey]
    by_cases hmem : key ∈ xs.map Prod.fst
    · -- a later entry of the key has the same word
      obtain ⟨b', hb', rfl⟩ := List.mem_map.1 hmem
      have hword := hxs b' hb'
      simp [hmem, Codec.apply, hword]
    · by_cases hk : key = b.1
      · rw [if_neg hmem, if_pos hk, if_pos (by simp [hk]), hk, Codec.apply, hb]
      · rw [if_neg hmem, if_neg hk, if_neg (by simpa [hk] using hmem)]

theorem get_applyDelta {delta : Row}
    (hsimple : ∀ key, words (some delta) key ≠ none → SimpleKey key) (fields : Row) :
    ∃ fields', applyDelta (.obj fields) delta = .obj fields' ∧
      (Json.obj fields').get = wire.apply (words (some delta)) (Json.obj fields).get := by
  have hentries : ∀ b ∈ (Json.obj delta).entries, words (some delta) b.1 = some b.2 := fun b hb =>
    get_obj_of_mem hb
  obtain ⟨fields', hfields', hget⟩ := get_foldl_deepSet hentries
    (fun b hb => hsimple b.1 (by rw [hentries b hb]; exact nofun)) fields
  refine ⟨fields', hfields', funext fun key => ?_⟩
  rw [hget]
  split_ifs with hmem
  · rfl
  · cases hword : words (some delta) key with
    | none => rw [Codec.apply, hword]
    | some word =>
      have hentry : (key, word) ∈ (Json.obj delta).entries := mem_entries hword
      exact absurd (List.mem_map.2 ⟨_, hentry, rfl⟩) hmem

/-! ## Updates -/

def IsObject (value : Json) : Prop := ∃ fields, value = .obj fields

/-- Two values are objects with the same properties. -/
def Same (a b : Json) : Prop := IsObject a ∧ IsObject b ∧ a.get = b.get

variable {env : Env} {room : Room} {clients : List Client} {updater : Updater} {userId : String}

theorem words_merge (pending delta : Option Row) :
    words ((delta.map fun delta => Assoc.merge (pending.getD []) (Json.obj delta).entries).or
      pending) = merge (words pending) (words delta) := by
  funext key
  cases delta with
  | none => rw [map_none, none_or, words_none, merge_none]
  | some delta =>
    rw [map_some, some_or, words_some, Json.entries, lookup_merge_entries,
      Deltas.merge, words_some, words, get_obj]

/-! ## Between the steps -/

/-- The delta that waits tells the present values of its keys, and the copies of the clients that
have joined differ from the state in these keys at most. -/
structure Coherent (room : Room) (clients : List Client) : Prop where
  shared : IsObject room.sharedState
  players : ∀ userId, IsObject (room.playerState userId)
  version : 0 ≤ room.sharedVersion
  pending : room.pendingSharedDelta ≠ none → 0 < room.sharedVersion
  encodes : wire.Encodes (words room.pendingSharedDelta) room.sharedState.get
  copies : ∀ c ∈ clients, c.synced → IsObject c.sharedState ∧
    Covers (words room.pendingSharedDelta) c.sharedState.get room.sharedState.get
  playerCopies : ∀ c ∈ clients, c.synced → Same c.playerState (room.playerState c.userId)

theorem coherent_init : Coherent {} [] where
  shared := ⟨[], rfl⟩
  players := fun _ => ⟨[], rfl⟩
  version := le_rfl
  pending := fun h => absurd rfl h
  encodes := by
    intro key word h
    rw [words_none] at h
    cases h
  copies := nofun
  playerCopies := nofun

namespace Coherent

theorem mono {clients' : List Client} (h : Coherent room clients)
    (hsub : ∀ c ∈ clients', c.synced → c ∈ clients) : Coherent room clients' :=
  { h with
    copies := fun c hc hsynced => h.copies c (hsub c hc hsynced) hsynced
    playerCopies := fun c hc hsynced => h.playerCopies c (hsub c hc hsynced) hsynced }

theorem setSharedState (h : Coherent room clients)
    (hvisible : ∀ newState ∈ updater room.sharedState, Visible room.sharedState (.obj newState)) :
    Coherent (room.setSharedState env updater) clients := by
  rcases room.setSharedState_cases env updater with heq | ⟨newState, pending, hnew, rfl, -, heq⟩
  · rwa [heq]
  · rw [heq]
    have hwords := words_merge room.pendingSharedDelta
      (computeDelta room.sharedState (.obj newState))
    have hcovers := covers_computeDelta (hvisible newState hnew)
    have hpos : 0 < room.sharedVersion + 1 := add_pos_of_nonneg_of_pos h.version one_pos
    exact
      { shared := ⟨newState, rfl⟩
        players := h.players
        version := hpos.le
        pending := fun _ => hpos
        encodes := by
          rw [hwords]
          exact h.encodes.merge hcovers (encodes_computeDelta room.sharedState newState)
        copies := by
          intro c hc hsynced
          obtain ⟨hobject, hcopy⟩ := h.copies c hc hsynced
          refine ⟨hobject, ?_⟩
          rw [hwords]
          exact hcopy.merge hcovers
        playerCopies := h.playerCopies }

theorem setServerState (h : Coherent room clients) :
    Coherent (room.setServerState env updater) clients := by
  rcases room.setServerState_cases env updater with heq | ⟨newState, -, -, heq⟩
  · rwa [heq]
  · rw [heq]
    exact { h with }

end Coherent

theorem playerState_set (room : Room) (versions : List (String × ℚ)) (userId : String)
    (state : Json) (userId' : String) :
    ({ room with
        playerStates := Assoc.set room.playerStates userId state
        playerVersions := versions } : Room).playerState userId' =
      if userId' = userId then state else room.playerState userId' := by
  unfold Room.playerState
  split_ifs with h
  · rw [h, lookup_set_self, getD_some]
  · rw [lookup_set_of_ne _ h]

/-- A client reads the word for a key of a state as it was meant. -/
def LegibleAt (state : Json) (key : String) : Prop := SimpleKey key ∧ state.get key ≠ some .null

/-- A client reads the words for what an update changes as they were meant. -/
def LegibleUpdate (oldState newState : Json) : Prop :=
  ∀ key, oldState.get key ≠ newState.get key → LegibleAt newState key

theorem legible_of_forall {delta : Delta String Json} {state : Json}
    (h : ∀ key, delta key ≠ none → LegibleAt state key) : wire.Legible delta state.get := by
  intro key hkey
  cases hget : state.get key with
  | none => rfl
  | some v =>
    have hv : v ≠ .null := fun hv => (h key hkey).2 (hv ▸ hget)
    simp [wire, hv]

/-- A copy that differs from a state in the keys of a delta at most is equal to it after it. -/
theorem same_applyDelta {copy state : Json} {delta : Row} (hcopy : IsObject copy)
    (hstate : IsObject state) (hencodes : wire.Encodes (words (some delta)) state.get)
    (hcovers : Covers (words (some delta)) copy.get state.get)
    (hlegible : ∀ key, words (some delta) key ≠ none → LegibleAt state key) :
    Same (applyDelta copy delta) state := by
  obtain ⟨fields, rfl⟩ := hcopy
  obtain ⟨fields', happly, hget⟩ := get_applyDelta (fun key hkey => (hlegible key hkey).1) fields
  rw [happly]
  refine ⟨⟨fields', rfl⟩, hstate, ?_⟩
  rw [hget]
  exact Codec.apply_eq hencodes hcovers (legible_of_forall hlegible)

theorem same_hearPlayerDelta {c : Client} {newState : Row} {version : ℚ}
    (hsame : Same c.playerState oldState) (hvisible : Visible oldState (.obj newState))
    (hlegible : LegibleUpdate oldState (.obj newState)) :
    Same (c.hearPlayerDelta ((computeDelta oldState (.obj newState)).map fun delta =>
      ⟨c.userId, delta, version⟩)).playerState (.obj newState) := by
  obtain ⟨hcopy, -, hget⟩ := hsame
  have hcovers := covers_computeDelta hvisible
  have hencodes := encodes_computeDelta oldState newState
  have hkeys : ∀ key, words (computeDelta oldState (.obj newState)) key ≠ none →
      LegibleAt (.obj newState) key := fun key hkey => hlegible key (get_ne_of_words hkey)
  cases hdelta : computeDelta oldState (.obj newState) with
  | none =>
    rw [hdelta, words_none] at hcovers
    refine ⟨hcopy, ⟨newState, rfl⟩, ?_⟩
    rw [map_none]
    exact hget.trans (funext fun key => hcovers key rfl)
  | some delta =>
    rw [hdelta] at hcovers hencodes hkeys
    rw [map_some, Client.hearPlayerDelta, if_pos rfl]
    exact same_applyDelta hcopy ⟨newState, rfl⟩ hencodes (hget ▸ hcovers) hkeys

/-- A client that has joined reads the delta that waits as it was meant. -/
def System.Flushable (s : System) : Prop :=
  (∃ c ∈ s.clients, c.synced) →
    ∀ key, words s.room.pendingSharedDelta key ≠ none → LegibleAt s.room.sharedState key

namespace Coherent

variable {s : System}

variable (h : Coherent s.room s.clients)
include h

theorem setPlayerState (hvisible : ∀ newState ∈ updater (s.room.playerState userId),
      (∃ c ∈ s.clients, c.synced ∧ c.userId = userId) →
        Visible (s.room.playerState userId) (.obj newState) ∧
          LegibleUpdate (s.room.playerState userId) (.obj newState)) :
    Coherent (s.setPlayerState env userId updater).room
      (s.setPlayerState env userId updater).clients := by
  unfold System.setPlayerState
  have hclients : s.clients.map (fun c => c.hearPlayerDelta none) = s.clients := List.map_id _
  rcases s.room.setPlayerState_cases env userId updater with heq | heq | ⟨newState, hnew, -, heq⟩
  · rw [heq]
    dsimp only
    rwa [hclients]
  · rw [heq]
    dsimp only
    rw [hclients]
    exact { h with }
  rw [heq]
  have hplayer := playerState_set s.room
    (Assoc.set s.room.playerVersions userId (s.room.playerVersion userId + 1)) userId
    (.obj newState)
  refine { h with players := fun userId' => ?_, copies := ?_, playerCopies := ?_ }
  · rw [hplayer]
    split_ifs
    · exact ⟨newState, rfl⟩
    · exact h.players userId'
  · simp only [List.forall_mem_map, Client.hearPlayerDelta_sharedState,
      Client.hearPlayerDelta_synced]
    exact h.copies
  · simp only [List.forall_mem_map, Client.hearPlayerDelta_synced, Client.hearPlayerDelta_userId]
    intro c hc hsynced
    rw [hplayer]
    have hsame := h.playerCopies c hc hsynced
    by_cases huser : c.userId = userId
    · subst huser
      obtain ⟨hvisible, hlegible⟩ := hvisible newState hnew ⟨c, hc, hsynced, rfl⟩
      rw [if_pos rfl]
      exact same_hearPlayerDelta hsame hvisible hlegible
    · rw [if_neg huser, Client.hearPlayerDelta_of_ne]
      · exact hsame
      · intro frame hframe
        obtain ⟨delta, -, rfl⟩ := map_eq_some_iff.1 hframe
        exact Ne.symm huser

theorem same_hearSharedDelta (hlegible : s.Flushable) : ∀ c ∈ s.clients, c.synced →
      Same (c.hearSharedDelta s.room.pendingSharedDelta s.room.sharedVersion).sharedState
        s.room.sharedState := by
  intro c hc hsynced
  obtain ⟨hobject, hcovers⟩ := h.copies c hc hsynced
  have hkeys := hlegible ⟨c, hc, hsynced⟩
  have hencodes := h.encodes
  cases hpending : s.room.pendingSharedDelta with
  | none =>
    rw [hpending, words_none] at hcovers
    exact ⟨hobject, h.shared, funext fun key => hcovers key rfl⟩
  | some delta =>
    rw [hpending] at hencodes hcovers hkeys
    exact same_applyDelta hobject h.shared hencodes hcovers hkeys

theorem flushSharedDelta (hlegible : s.Flushable) :
    Coherent s.flushSharedDelta.room s.flushSharedDelta.clients := by
  have hsame := h.same_hearSharedDelta hlegible
  refine { h with
    pending := fun hne => absurd rfl hne
    encodes := ?_
    copies := ?_
    playerCopies := ?_ }
  · intro key word hword
    change words none key = some word at hword
    rw [words_none] at hword
    cases hword
  · refine List.forall_mem_map.2 fun c hc hsynced => ?_
    obtain ⟨state, version, heq⟩ :=
      c.hearSharedDelta_eq s.room.pendingSharedDelta s.room.sharedVersion
    rw [heq] at hsynced ⊢
    have hcopy := hsame c hc hsynced
    rw [heq] at hcopy
    exact ⟨hcopy.1, fun key _ => congrFun hcopy.2.2 key⟩
  · refine List.forall_mem_map.2 fun c hc hsynced => ?_
    obtain ⟨state, version, heq⟩ :=
      c.hearSharedDelta_eq s.room.pendingSharedDelta s.room.sharedVersion
    rw [heq] at hsynced ⊢
    exact h.playerCopies c hc hsynced

omit h

/-! ### A join -/

theorem initPlayer (h : Coherent room clients) : Coherent (room.initPlayer userId) clients := by
  unfold Room.initPlayer
  split_ifs with hnone
  · have hplayer : ∀ userId', ({ room with
        playerStates := Assoc.set room.playerStates userId (.obj [])
        playerVersions := Assoc.set room.playerVersions userId 0 } : Room).playerState userId' =
        room.playerState userId' := by
      intro userId'
      rw [playerState_set]
      split_ifs with heq
      · rw [heq, Room.playerState, hnone, getD_none]
      · rfl
    exact
      { h with
        players := fun userId' => by rw [hplayer]; exact h.players userId'
        playerCopies := fun c hc hsynced => by rw [hplayer]; exact h.playerCopies c hc hsynced }
  · exact h

/-- What a message restores is an object, and replaces nothing that a client has a copy of. -/
theorem recoverShared {msg : JoinMessage} (h : Coherent room clients)
    (hmsg : ∀ r ∈ Room.recoverable env msg.lastSharedState msg.lastSharedVersion,
      room.sharedState.entries = [] → room.sharedVersion = 0 →
        IsObject r.1 ∧ ∀ c ∈ clients, ¬ c.synced) :
    Coherent (room.recoverShared env msg) clients := by
  rcases room.recoverShared_cases env msg with heq | ⟨state, version, hstate, hempty, hzero, heq⟩
  · rwa [heq]
  · rw [heq]
    obtain ⟨hobject, hnone⟩ := hmsg _ hstate hempty hzero
    have hpos : 0 < version := Room.recoverable_pos hstate
    -- nothing waits at version zero
    have hpending : room.pendingSharedDelta = none := by
      by_contra hne
      exact (h.pending hne).ne' hzero
    exact
      { shared := hobject
        players := h.players
        version := hpos.le
        pending := fun _ => hpos
        encodes := by
          intro key word hword
          rw [hpending, words_none] at hword
          cases hword
        copies := fun c hc hsynced => absurd hsynced (hnone c hc)
        playerCopies := h.playerCopies }

theorem recoverPlayer {msg : JoinMessage} (h : Coherent room clients)
    (hmsg : ∀ r ∈ Room.recoverable env msg.lastPlayerState msg.lastPlayerVersion,
      room.playerVersion userId = 0 → IsObject r.1 ∧ ∀ c ∈ clients, c.synced → c.userId ≠ userId) :
    Coherent (room.recoverPlayer env userId msg) clients := by
  rcases room.recoverPlayer_cases env userId msg with heq | ⟨state, version, hstate, hzero, heq⟩
  · rwa [heq]
  · rw [heq]
    obtain ⟨hobject, hother⟩ := hmsg _ hstate hzero
    have hplayer := playerState_set room (Assoc.set room.playerVersions userId version) userId state
    refine { h with players := fun userId' => ?_, playerCopies := fun c hc hsynced => ?_ }
    · rw [hplayer]
      split_ifs
      · exact hobject
      · exact h.players userId'
    · rw [hplayer, if_neg (hother c hc hsynced)]
      exact h.playerCopies c hc hsynced

end Coherent

/-- What a join message restores is an object, and replaces nothing that another client has a copy
of. -/
def System.Restorable (env : Env) (s : System) (client : Client) (msg : JoinMessage) : Prop :=
  (∀ r ∈ Room.recoverable env msg.lastSharedState msg.lastSharedVersion,
    s.room.sharedState.entries = [] → s.room.sharedVersion = 0 →
      IsObject r.1 ∧ ∀ c ∈ s.clients, c.connectionId ≠ client.connectionId → ¬ c.synced) ∧
  ∀ r ∈ Room.recoverable env msg.lastPlayerState msg.lastPlayerVersion,
    s.room.playerVersion client.userId = 0 →
      IsObject r.1 ∧ ∀ c ∈ s.clients, c.connectionId ≠ client.connectionId → c.synced →
        c.userId ≠ client.userId

namespace Coherent

variable {s : System} {client : Client} {msg : JoinMessage}

theorem playerVersion_recoverShared (room : Room) (msg : JoinMessage) :
    (room.recoverShared env msg).playerVersion userId = room.playerVersion userId := by
  rcases room.recoverShared_cases env msg with heq | ⟨state, version, -, -, -, heq⟩ <;> rw [heq]
  rfl

theorem shared_enter (env : Env) (room : Room) (userId : String) (msg : JoinMessage) :
    (room.enter env userId msg).sharedState = (room.recoverShared env msg).sharedState ∧
      (room.enter env userId msg).pendingSharedDelta = room.pendingSharedDelta := by
  have hshared : (room.recoverShared env msg).pendingSharedDelta = room.pendingSharedDelta := by
    rcases room.recoverShared_cases env msg with heq | ⟨state, version, -, -, -, heq⟩ <;> rw [heq]
  unfold Room.enter Room.initPlayer
  generalize room.recoverShared env msg = room' at *
  rcases room'.recoverPlayer_cases env userId msg with heq | ⟨state, version, -, -, heq⟩
  all_goals
    rw [heq]
    split_ifs <;> exact ⟨rfl, hshared⟩

def others (s : System) (client : Client) : List Client :=
  s.clients.filter (·.connectionId ≠ client.connectionId)

theorem mem_others {c : Client} :
    c ∈ others s client ↔ c ∈ s.clients ∧ c.connectionId ≠ client.connectionId := by
  simp [others]

variable (h : Coherent s.room s.clients)
include h

theorem enter (hmsg : s.Restorable env client msg) :
    Coherent (s.enter env client msg).room (others s client) := by
  have hmono : Coherent s.room (others s client) := h.mono fun c hc _ => (mem_others.1 hc).1
  refine ((hmono.recoverShared ?_).recoverPlayer ?_).initPlayer
  · intro r hr hempty hzero
    obtain ⟨hobject, hnone⟩ := hmsg.1 r hr hempty hzero
    exact ⟨hobject, fun c hc => hnone c (mem_others.1 hc).1 (mem_others.1 hc).2⟩
  · intro r hr hzero
    rw [playerVersion_recoverShared] at hzero
    obtain ⟨hobject, hother⟩ := hmsg.2 r hr hzero
    exact ⟨hobject, fun c hc => hother c (mem_others.1 hc).1 (mem_others.1 hc).2⟩

theorem flushable_enter (hflush : s.Flushable) :
    ({ room := (s.enter env client msg).room, clients := others s client } : System).Flushable := by
  rintro ⟨c, hc, hsynced⟩ key hkey
  obtain ⟨hstate, hpending⟩ := shared_enter env s.room client.userId msg
  have hlegible := hflush ⟨c, (mem_others.1 hc).1, hsynced⟩ key
  dsimp only [System.enter] at hkey ⊢
  rw [hpending] at hkey
  rw [hstate]
  rcases s.room.recoverShared_cases env msg with heq | ⟨state, version, -, -, hzero, heq⟩
  · rw [heq]
    exact hlegible hkey
  · -- nothing waits at version zero
    have hnone : s.room.pendingSharedDelta = none := by
      by_contra hne
      exact (h.pending hne).ne' hzero
    rw [hnone, words_none] at hkey
    exact absurd rfl hkey

theorem handleJoin (hmsg : s.Restorable env client msg) (hflush : s.Flushable) :
    Coherent (s.handleJoin env client msg).room (s.handleJoin env client msg).clients := by
  have hcoherent := (h.enter hmsg).flushSharedDelta (h.flushable_enter hflush)
  refine { hcoherent with copies := fun c hc hsynced => ?_, playerCopies := fun c hc hsynced => ?_ }
  · rcases System.mem_handleJoin hc with ⟨c₀, -, rfl⟩ | ⟨c₀, hc₀, hne, rfl⟩
    · exact ⟨hcoherent.shared, Covers.refl _⟩
    · exact hcoherent.copies _ (List.mem_map.2 ⟨c₀, mem_others.2 ⟨hc₀, hne⟩, rfl⟩) hsynced
  · rcases System.mem_handleJoin hc with ⟨c₀, -, rfl⟩ | ⟨c₀, hc₀, hne, rfl⟩
    · exact ⟨hcoherent.players c₀.userId, hcoherent.players c₀.userId, rfl⟩
    · exact hcoherent.playerCopies _ (List.mem_map.2 ⟨c₀, mem_others.2 ⟨hc₀, hne⟩, rfl⟩) hsynced

end Coherent

/-! ## Runs -/

namespace System

variable (env) (s : System)

/-- What a step has to do so that the clients read what the server means: an update must be seen by
`computeDelta`; the keys that a flush tells must be simple, and `null` must mean that they are gone;
and a join must restore nothing that another client has a copy of. -/
def Transmissible : Action → Prop
  | .connect _ | .close _ | .setServerState _ => True
  | .join connectionId msg =>
    ∀ client ∈ s.client connectionId, s.Restorable env client msg ∧ s.Flushable
  | .setSharedState updater =>
    ∀ newState ∈ updater s.room.sharedState, Visible s.room.sharedState (.obj newState)
  | .setPlayerState userId updater =>
    ∀ newState ∈ updater (s.room.playerState userId),
      (∃ c ∈ s.clients, c.synced ∧ c.userId = userId) →
        Visible (s.room.playerState userId) (.obj newState) ∧
          LegibleUpdate (s.room.playerState userId) (.obj newState)
  | .flush => s.Flushable

/-- A step sends the delta that waits. -/
def flushes : Action → Bool
  | .join connectionId _ => (s.client connectionId).isSome && s.room.pendingSharedDelta.isSome
  | .flush => s.room.pendingSharedDelta.isSome
  | _ => false

/-- The delta of a player's state that a step sends. -/
def playerFrame : Action → Option Room.PlayerDelta
  | .setPlayerState userId updater => (s.room.setPlayerState env userId updater).2
  | _ => none

/-- After a frame the copies that hear it are equal to the state, and have its version. -/
structure Converged (a : Action) : Prop where
  shared : s.flushes a → ∀ c ∈ (s.step env a).clients, c.synced →
    Same c.sharedState (s.step env a).room.sharedState ∧
      c.sharedVersion = (s.step env a).room.sharedVersion
  player : ∀ frame ∈ s.playerFrame env a, ∀ c ∈ (s.step env a).clients, c.synced →
    c.userId = frame.userId → Same c.playerState ((s.step env a).room.playerState c.userId) ∧
      c.playerVersion = (s.step env a).room.playerVersion c.userId

variable {env s} {a : Action}

variable (h : Coherent s.room s.clients)
include h

variable (ht : s.Transmissible env a)
include ht

theorem coherent_step : Coherent (s.step env a).room (s.step env a).clients := by
  cases a with
  | connect client =>
    refine h.mono fun c hc hsynced => ?_
    rcases mem_cons.1 hc with rfl | hc
    · cases hsynced
    · exact (mem_filter.1 hc).1
  | close connectionId => exact h.mono fun c hc _ => (mem_filter.1 hc).1
  | join connectionId msg =>
    cases hclient : s.client connectionId with
    | some client =>
      obtain ⟨hmsg, hflush⟩ := ht client hclient
      rw [step_join msg hclient]
      exact h.handleJoin hmsg hflush
    | none => rwa [step_join_none msg hclient]
  | setSharedState updater => exact h.setSharedState ht
  | setPlayerState userId updater => exact h.setPlayerState ht
  | setServerState updater => exact h.setServerState
  | flush => exact h.flushSharedDelta ht

theorem shared_converged (hflushes : s.flushes a) : ∀ c ∈ (s.step env a).clients, c.synced →
      Same c.sharedState (s.step env a).room.sharedState ∧
        c.sharedVersion = (s.step env a).room.sharedVersion := by
  have hstep := coherent_step h ht
  intro c hc hsynced
  cases a with
  | join connectionId msg =>
    obtain ⟨hclient, hpending⟩ := Bool.and_eq_true_iff.1 hflushes
    obtain ⟨client, hclient⟩ := isSome_iff_exists.1 hclient
    obtain ⟨hmsg, hflush⟩ := ht client hclient
    rw [step_join msg hclient] at hc hstep ⊢
    rcases mem_handleJoin hc with ⟨c₀, -, rfl⟩ | ⟨c₀, hc₀, hne, rfl⟩
    · exact ⟨⟨hstep.shared, hstep.shared, rfl⟩, rfl⟩
    · have hpending' : (s.enter env client msg).room.pendingSharedDelta.isSome := by
        rwa [enter, (Coherent.shared_enter env s.room client.userId msg).2]
      refine ⟨?_, Client.hearSharedDelta_sharedVersion c₀ hpending' _⟩
      rw [Client.hearSharedDelta_synced] at hsynced
      exact (h.enter hmsg).same_hearSharedDelta (h.flushable_enter hflush) c₀
        (Coherent.mem_others.2 ⟨hc₀, hne⟩) hsynced
  | flush =>
    obtain ⟨c₀, hc₀, rfl⟩ := List.mem_map.1 hc
    rw [Client.hearSharedDelta_synced] at hsynced
    exact ⟨h.same_hearSharedDelta ht c₀ hc₀ hsynced,
      Client.hearSharedDelta_sharedVersion c₀ hflushes _⟩
  | connect _ | close _ | setSharedState _ | setPlayerState _ _ | setServerState _ => cases hflushes

theorem player_converged : ∀ frame ∈ s.playerFrame env a, ∀ c ∈ (s.step env a).clients, c.synced →
      c.userId = frame.userId → Same c.playerState ((s.step env a).room.playerState c.userId) ∧
        c.playerVersion = (s.step env a).room.playerVersion c.userId := by
  intro frame hframe c hc hsynced huser
  refine ⟨(coherent_step h ht).playerCopies c hc hsynced, ?_⟩
  cases a with
  | setPlayerState userId updater =>
    obtain ⟨c₀, hc₀, rfl⟩ := List.mem_map.1 hc
    rw [Client.hearPlayerDelta_userId] at huser ⊢
    change frame ∈ (s.room.setPlayerState env userId updater).2 at hframe
    rw [mem_def.1 hframe, Client.hearPlayerDelta, if_pos huser]
    rcases s.room.setPlayerState_cases env userId updater with heq | heq | ⟨newState, -, -, heq⟩
    · rw [heq] at hframe
      cases hframe
    · rw [heq] at hframe
      cases hframe
    · rw [heq] at hframe
      obtain ⟨delta, -, rfl⟩ := map_eq_some_iff.1 hframe
      subst huser
      have hversion :
          (s.room.setPlayerState env c₀.userId updater).1.playerVersions.lookup c₀.userId =
            some (s.room.playerVersion c₀.userId + 1) := by
        rw [heq]
        exact lookup_set_self ..
      exact (congrArg (·.getD 0) hversion).symm
  | connect _ | close _ | join _ _ | setSharedState _ | setServerState _ | flush => cases hframe

theorem converged_step : s.Converged env a :=
  ⟨shared_converged h ht, player_converged h ht⟩

omit ht

omit h

/-- After each flush, and each delta of a player's state, the copies are equal to the state. -/
theorem converged_run (env : Env) (actions : List Action)
    (h : Runs.Along (step env) (Transmissible env) {} actions) :
    Runs.Along (step env) (Converged env) {} actions :=
  (h.of_invariant (I := fun s => Coherent s.room s.clients) coherent_init
    (fun _ _ => coherent_step) fun _ _ => converged_step).1

end System

/-! ## Two runs -/

section

variable {state : Json} {key : String}

theorem mem_keys_of_get (h : state.get key ≠ none) : key ∈ state.entries.map Prod.fst := by
  obtain ⟨v, hv⟩ := ne_none_iff_exists'.1 h
  exact List.mem_map.2 ⟨_, mem_entries hv, rfl⟩

theorem forall_ne_iff {p : String → Prop} : (∀ key, oldState.get key ≠ newState.get key → p key) ↔
      ∀ key ∈ (oldState.entries ++ newState.entries).map Prod.fst,
        oldState.get key ≠ newState.get key → p key := by
  refine ⟨fun h key _ => h key, fun h key hne => h key ?_ hne⟩
  rw [map_append, mem_append]
  by_cases hold : oldState.get key = none
  · exact .inr (mem_keys_of_get fun hnew => hne (hold.trans hnew.symm))
  · exact .inl (mem_keys_of_get hold)

instance : Decidable (SimpleKey key) := inferInstanceAs (Decidable (_ ∧ _))

instance : Decidable (LegibleAt state key) := inferInstanceAs (Decidable (_ ∧ _))

instance : Decidable (Visible oldState newState) := decidable_of_iff _ forall_ne_iff.symm

instance : Decidable (LegibleUpdate oldState newState) := decidable_of_iff _ forall_ne_iff.symm

instance : Decidable (IsObject state) :=
  match state with
  | .obj fields => isTrue ⟨fields, rfl⟩
  | .null | .bool _ | .num _ | .str _ | .arr _ => isFalse nofun

end

namespace System

variable {env : Env} {s : System} {a : Action}

instance : Decidable s.Flushable :=
  decidable_of_iff ((∃ c ∈ s.clients, c.synced) →
    ∀ key ∈ (Json.obj (s.room.pendingSharedDelta.getD [])).entries.map Prod.fst,
      words s.room.pendingSharedDelta key ≠ none → LegibleAt s.room.sharedState key)
    ⟨fun h hsynced key hkey => h hsynced key (mem_keys_of_get hkey) hkey,
      fun h hsynced key _ => h hsynced key⟩

instance {client : Client} {msg : JoinMessage} : Decidable (s.Restorable env client msg) :=
  @instDecidableAnd _ _ inferInstance inferInstance

instance : Decidable (s.Transmissible env a) :=
  match a with
  | .connect _ | .close _ | .setServerState _ => isTrue trivial
  | .join connectionId msg =>
    inferInstanceAs (Decidable (∀ client ∈ s.client connectionId,
      s.Restorable env client msg ∧ s.Flushable))
  | .setSharedState updater =>
    inferInstanceAs (Decidable (∀ newState ∈ updater s.room.sharedState, Visible _ _))
  | .setPlayerState userId updater =>
    inferInstanceAs (Decidable (∀ newState ∈ updater (s.room.playerState userId),
      (∃ c ∈ s.clients, c.synced ∧ c.userId = userId) → Visible _ _ ∧ LegibleUpdate _ _))
  | .flush => inferInstanceAs (Decidable s.Flushable)

end System

def annsTurn : List Action :=
  [.connect { connectionId := "c1", userId := "ann" }, .join "c1" {},
    .setSharedState fun _ => some [("turn", .str "ann")], .flush]

theorem annsTurn_converged :
    Runs.Along (System.step gameEnv) (System.Converged gameEnv) {} annsTurn :=
  System.converged_run gameEnv annsTurn (by decide +kernel)

/-- Then it is nobody's turn: the state keeps the key, and the client deletes it. -/
def nobodysTurn : List Action :=
  annsTurn ++ [.setSharedState fun _ => some [("turn", .null)]] ++ [.flush]

theorem nobodysTurn_not_converged :
    ¬ Runs.Along (System.step gameEnv) (System.Converged gameEnv) {} nobodysTurn := by
  intro h
  obtain ⟨-, hconverged, -⟩ := Runs.Along.append.1 h
  obtain ⟨c, hc, hsynced, hturn⟩ : ∃ c ∈ (Runs.last (System.step gameEnv) {} nobodysTurn).clients,
      c.synced ∧ c.sharedState.get "turn" ≠
        (Runs.last (System.step gameEnv) {} nobodysTurn).room.sharedState.get "turn" := by
    decide +kernel
  obtain ⟨⟨-, -, hsame⟩, -⟩ := hconverged.shared (by decide +kernel) c hc hsynced
  exact hturn (congrFun hsame "turn")

end Rooms

end EdgeBase
