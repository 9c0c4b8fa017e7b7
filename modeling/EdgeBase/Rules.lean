import EdgeBase.Json

/-!
# Access rules and their evaluation

An access rule is a boolean or a function of the caller and a row, and a function may answer at
once, throw, or return a promise.  `RuleResult` is what one call gives; everything the server does
with a rule is a reading of it.

* `settle` : the value that awaiting a result under a deadline gives, `false` on failure.
-/

namespace EdgeBase

/-- The caller, as the auth middleware established it. -/
structure AuthContext where
  id : String
  claims : Row := []
  deriving DecidableEq

inductive RuleResult where
  | value (b : Bool)
  | throws
  /-- The call returns a promise, resolved with `b` after `ms` milliseconds. -/
  | resolves (b : Bool) (ms : ℕ)
  /-- The call returns a promise, rejected after `ms` milliseconds. -/
  | rejects (ms : ℕ)
  /-- The call returns a promise that never settles. -/
  | pending
  deriving DecidableEq

/-- A rule as a table configuration gives it: a boolean, or a function of the caller and `α`. -/
inductive Rule (α : Type) where
  | bool (b : Bool)
  | fn (f : Option AuthContext → α → RuleResult)

/-- A rule of the row operations read, update and delete. -/
abbrev RowRule := Rule Row

abbrev InsertRule := Rule Unit

/-- The value of a result raced against a deadline, `false` if it throws, rejects or is late. -/
def settle (timeoutMs : ℕ) : RuleResult → Bool
  | .value b => b
  | .throws => false
  | .resolves b ms => b && decide (ms < timeoutMs)
  | .rejects _ => false
  | .pending => false

/-- `evalWithTimeout` of the rules middleware, on the result of the call. -/
def evalWithTimeout (r : RuleResult) (timeoutMs : ℕ) : Bool := settle timeoutMs r

/-- `WORKER_RULE_TIMEOUT_MS` and the deadline of every row rule. -/
def workerRuleTimeoutMs : ℕ := 50

/-- `DB_ACCESS_RULE_TIMEOUT_MS`. -/
def dbAccessRuleTimeoutMs : ℕ := 2000

namespace Rule

variable {α : Type}

/-- `normalizeRule` of the rules middleware: the result of calling a rule. -/
def call (rule : Rule α) (auth : Option AuthContext) (a : α) : RuleResult :=
  match rule with
  | .bool b => .value b
  | .fn f => f auth a

/-- `typeof rule === 'function'`. -/
def isFn : Rule α → Bool
  | .bool _ => false
  | .fn _ => true

/-- Whether a configured rule is truthy: everything but the literal `false`. -/
def truthy : Rule α → Bool
  | .bool b => b
  | .fn _ => true

@[simp] theorem call_bool (b : Bool) (auth : Option AuthContext) (a : α) :
    (Rule.bool b).call auth a = .value b := rfl

@[simp] theorem call_fn (f : Option AuthContext → α → RuleResult) (auth : Option AuthContext)
    (a : α) : (Rule.fn f).call auth a = f auth a := rfl

end Rule

/-- `evalRowRule` of the Durable Object, of the D1 handler and of the PostgreSQL handler: no rule
allows, a boolean is its own value, a function is awaited for 50 ms and fails closed. -/
def evalRowRule (rule : Option RowRule) (auth : Option AuthContext) (row : Row) : Bool :=
  match rule with
  | none => true
  | some (.bool b) => b
  | some (.fn f) => settle workerRuleTimeoutMs (f auth row)

/-- `evalInsertRule` of the D1 and PostgreSQL handlers, and the evaluation of an insert rule by
the Durable Object. -/
def evalInsertRule (rule : Option InsertRule) (auth : Option AuthContext) : Bool :=
  match rule with
  | none => true
  | some (.bool b) => b
  | some (.fn f) => settle workerRuleTimeoutMs (f auth ())

/-- What calling a rule without awaiting it does in a boolean position: an exception, or the
truthiness of what it returned.  Every promise is truthy. -/
def callSync (r : RuleResult) : Option Bool :=
  match r with
  | .value b => some b
  | .throws => none
  | .resolves _ _ | .rejects _ | .pending => some true

/-- A result that an unawaited truthiness test accepts although awaiting it denies. -/
def BadPromise (r : RuleResult) : Prop :=
  callSync r = some true ∧ settle workerRuleTimeoutMs r = false

instance (r : RuleResult) : Decidable (BadPromise r) :=
  inferInstanceAs (Decidable (_ ∧ _))

@[simp] theorem evalRowRule_none (auth : Option AuthContext) (row : Row) :
    evalRowRule none auth row = true := rfl

@[simp] theorem evalRowRule_bool (b : Bool) (auth : Option AuthContext) (row : Row) :
    evalRowRule (some (.bool b)) auth row = b := rfl

theorem settle_of_callSync {r : RuleResult} (h : callSync r = some true) (hbad : ¬BadPromise r) :
    settle workerRuleTimeoutMs r = true := by
  rw [← Bool.not_eq_false]
  exact fun hf => hbad ⟨h, hf⟩

end EdgeBase
