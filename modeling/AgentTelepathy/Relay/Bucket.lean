import AgentTelepathy.Foundation.Allowance
import AgentTelepathy.Relay.Server

/-!
# The token bucket

`TokenBucket` for calls that ask for any number of tokens. A bucket is an account that is refilled
at `rate` up to `burst`; a call that is granted spends what it asks for, and one that is refused
spends nothing.
-/

namespace AgentTelepathy

open Foundation Transition

/-- A call of `consume`: the reading of the clock, and the tokens it asks for. -/
structure Consumption where
  now : ℚ
  tokens : ℚ

namespace TokenBucket

variable {b : TokenBucket} {call : Consumption} {calls : List Consumption}

/-- `consume(tokens)`. -/
def consumeTokens (b : TokenBucket) (call : Consumption) : TokenBucket × Bool :=
  let tokens := min b.burst (b.tokens + (call.now - b.lastRefill) * b.rate)
  if call.tokens ≤ tokens then (⟨b.rate, b.burst, tokens - call.tokens, call.now⟩, true)
  else (⟨b.rate, b.burst, tokens, call.now⟩, false)

/-- The relay asks for one token. -/
theorem consume_eq (b : TokenBucket) (now : ℚ) : b.consume now = b.consumeTokens ⟨now, 1⟩ := rfl

/-- The bucket after a list of calls. -/
def after (b : TokenBucket) (calls : List Consumption) : TokenBucket :=
  calls.foldl (fun b call => (b.consumeTokens call).1) b

/-- When each of a list of calls was made, and the tokens it was granted. -/
def grants (b : TokenBucket) : List Consumption → List (ℚ × ℚ)
  | [] => []
  | call :: calls =>
    (call.now, if (b.consumeTokens call).2 then call.tokens else 0) ::
      (b.consumeTokens call).1.grants calls

/-- The tokens granted in an interval of time. -/
def grantedIn (b : TokenBucket) (s t : ℚ) (calls : List Consumption) : ℚ :=
  Account.spentIn s t (b.grants calls)

/-- A bucket as an account. -/
def account (b : TokenBucket) : Account ℚ := ⟨b.tokens, b.lastRefill⟩

theorem consumeTokens_rate : (b.consumeTokens call).1.rate = b.rate := by
  rw [consumeTokens]
  split <;> rfl

theorem consumeTokens_burst : (b.consumeTokens call).1.burst = b.burst := by
  rw [consumeTokens]
  split <;> rfl

/-- A call brings the account up to date and spends what it is granted. -/
theorem spends_consumeTokens (positive : 0 ≤ b.rate) (sound : b.account.Sound b.burst)
    (later : b.lastRefill ≤ call.now) (amount : 0 ≤ call.tokens) :
    Account.Spends b.rate b.burst b.account
      (call.now, if (b.consumeTokens call).2 then call.tokens else 0)
      (b.consumeTokens call).1.account := by
  have refilled : 0 ≤ b.tokens + (call.now - b.lastRefill) * b.rate :=
    add_nonneg sound.1 (mul_nonneg (sub_nonneg.mpr later) positive)
  have solvent := le_min (sound.1.trans sound.2) refilled
  by_cases enough : call.tokens ≤ min b.burst (b.tokens + (call.now - b.lastRefill) * b.rate)
  · simp only [consumeTokens, if_pos enough, if_true]
    exact ⟨later, amount, rfl, sub_nonneg.mpr enough, (sub_add_cancel _ _).le⟩
  · simp only [consumeTokens, if_neg enough, Bool.false_eq_true, if_false]
    exact ⟨later, le_rfl, rfl, solvent, (add_zero _).le⟩

/-- The calls are made in order, none before the bucket was last refilled, and none asks for less
than nothing. -/
structure Timely (b : TokenBucket) (calls : List Consumption) : Prop where
  ordered : (b.lastRefill :: calls.map Consumption.now).Pairwise (· ≤ ·)
  amounts : ∀ call ∈ calls, 0 ≤ call.tokens

theorem Timely.tail (timely : b.Timely (call :: calls)) :
    (b.consumeTokens call).1.Timely calls := by
  have last : (b.consumeTokens call).1.lastRefill = call.now := by
    rw [consumeTokens]
    split <;> rfl
  constructor
  · rw [last]
    exact (List.pairwise_cons.mp timely.ordered).2
  · intro other member
    exact timely.amounts other (List.mem_cons_of_mem _ member)

/-- A list of calls is a run of the account. -/
theorem run_after (positive : 0 ≤ b.rate) (sound : b.account.Sound b.burst)
    (timely : b.Timely calls) :
    Run (Account.Spends b.rate b.burst) b.account (b.grants calls) (b.after calls).account := by
  induction calls generalizing b with
  | nil => exact .nil
  | cons call calls ih =>
    have later := (List.pairwise_cons.mp timely.ordered).1 call.now (List.mem_cons_self ..)
    have step := spends_consumeTokens positive sound later
      (timely.amounts call (List.mem_cons_self ..))
    have rest := ih (b := (b.consumeTokens call).1)
    rw [consumeTokens_rate, consumeTokens_burst] at rest
    exact (Run.single step).append (rest positive step.sound timely.tail)

theorem Timely.of_prefix {calls' : List Consumption} (timely : b.Timely calls)
    (before : calls' <+: calls) : b.Timely calls' := by
  obtain ⟨rest, rfl⟩ := before
  constructor
  · have ordered := timely.ordered
    rw [List.map_append, ← List.cons_append] at ordered
    exact (List.pairwise_append.mp ordered).1
  · intro call member
    exact timely.amounts call (List.mem_append_left _ member)

/-- After every call the tokens lie between none and the burst, and in no interval are more
granted than the burst and what is refilled in it. -/
theorem tokens_bounded_and_grantedIn_le {rate burst start s t : ℚ} (positive : 0 ≤ rate)
    (room : 0 ≤ burst) (timely : (init rate burst start).Timely calls) (ordered : s ≤ t) :
    (∀ calls', calls' <+: calls →
      0 ≤ ((init rate burst start).after calls').tokens ∧
        ((init rate burst start).after calls').tokens ≤ burst) ∧
      (init rate burst start).grantedIn s t calls ≤ burst + rate * (t - s) := by
  have sound : (init rate burst start).account.Sound burst := ⟨room, le_rfl⟩
  constructor
  · intro calls' before
    exact Account.sound_of_run (run_after positive sound (timely.of_prefix before)) sound
  · rw [mul_comm]
    exact Account.spentIn_le positive ordered (run_after positive sound timely) sound

/-- A bucket of two, refilled once a second, and four calls in half a second. -/
theorem tokens_bounded_and_grantedIn_le_burst :
    (∀ calls', calls' <+: [⟨0, 1⟩, ⟨0, 1⟩, ⟨0, 1⟩, ⟨1 / 2, 1⟩] →
      0 ≤ ((init 1 2 0).after calls').tokens ∧ ((init 1 2 0).after calls').tokens ≤ 2) ∧
      (init 1 2 0).grantedIn 0 (1 / 2) [⟨0, 1⟩, ⟨0, 1⟩, ⟨0, 1⟩, ⟨1 / 2, 1⟩] ≤ 2 + 1 * (1 / 2 - 0) :=
  tokens_bounded_and_grantedIn_le (by norm_num) (by norm_num)
    ⟨by norm_num [init], by norm_num⟩ (by norm_num)

end TokenBucket

end AgentTelepathy
