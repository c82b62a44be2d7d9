import AgentTelepathy.Foundation.Dict
import AgentTelepathy.Foundation.Windows

/-!
# The webhook gateway

`_check_rate_limit`, the dependency of every request to the gateway. For each address it keeps how
many requests it has let through and when it began to count; it begins again with the first request
that comes more than a minute later.
-/

namespace AgentTelepathy

open Foundation

/-- A request: the host of its client, if it has one, and the reading of the monotonic clock. -/
structure WebhookRequest where
  host : Option String
  now : ℚ

/-- The address a request is counted under. -/
def WebhookRequest.ip (request : WebhookRequest) : String := request.host.getD "unknown"

namespace Webhook

/-- `_rate_limits`: the count and the start of the window. -/
abbrev RateLimits := Dict String (ℕ × ℚ)

variable {limits : RateLimits} {request : WebhookRequest} {requests : List WebhookRequest}
  {ip : String}

/-- `_check_rate_limit`; false if it raises the exception with status 429. -/
def checkRateLimit (limits : RateLimits) (request : WebhookRequest) : RateLimits × Bool :=
  match limits.get? request.ip with
  | some (count, windowStart) =>
    if request.now - windowStart > 60 then (limits.set request.ip (1, request.now), true)
    else if count ≥ 60 then (limits, false)
    else (limits.set request.ip (count + 1, windowStart), true)
  | none => (limits.set request.ip (1, request.now), true)

/-- When the requests of an address arrive. -/
def arrivals (ip : String) (requests : List WebhookRequest) : List ℚ :=
  (requests.filter fun request => request.ip = ip).map WebhookRequest.now

/-- When those requests of an address arrive that pass `_check_rate_limit`. -/
def passes (ip : String) (limits : RateLimits) : List WebhookRequest → List ℚ
  | [] => []
  | request :: requests =>
    (if request.ip = ip ∧ (checkRateLimit limits request).2 then [request.now] else []) ++
      passes ip (checkRateLimit limits request).1 requests

/-- For its own address a request is counted as a fixed window counts it. -/
theorem checkRateLimit_self (limits : RateLimits) (request : WebhookRequest) :
    ((checkRateLimit limits request).1.get? request.ip, (checkRateLimit limits request).2) =
      Windows.pass 60 60 (limits.get? request.ip) request.now := by
  unfold checkRateLimit
  cases entry : limits.get? request.ip with
  | none => simp [Windows.pass]
  | some counter =>
    obtain ⟨count, start⟩ := counter
    by_cases late : request.now - start > 60
    · simp [Windows.pass, late]
    · by_cases full : count ≥ 60
      · simp [Windows.pass, late, full, entry]
      · simp [Windows.pass, late, full]

/-- A request leaves the counters of other addresses as they are. -/
theorem get?_checkRateLimit_of_ne (other : ip ≠ request.ip) :
    (checkRateLimit limits request).1.get? ip = limits.get? ip := by
  unfold checkRateLimit
  split
  · split
    · exact Dict.get?_set_of_ne other
    · split
      · rfl
      · exact Dict.get?_set_of_ne other
  · exact Dict.get?_set_of_ne other

/-- Every address has a counter of its own. -/
theorem passes_eq_admitted (ip : String) (limits : RateLimits) (requests : List WebhookRequest) :
    passes ip limits requests =
      Windows.admitted 60 60 (limits.get? ip) (arrivals ip requests) := by
  induction requests generalizing limits with
  | nil => rfl
  | cons request requests ih =>
    rw [passes, ih]
    by_cases own : request.ip = ip
    · have counted := checkRateLimit_self limits request
      rw [own] at counted
      obtain ⟨entry, passed⟩ := Prod.ext_iff.mp counted
      simp only at entry passed
      simp only [arrivals, own, decide_true, List.filter_cons_of_pos, List.map_cons,
        Windows.admitted, entry, passed, true_and]
    · rw [get?_checkRateLimit_of_ne fun same => own same.symm]
      simp [arrivals, own]

theorem arrivals_sorted (ordered : (requests.map WebhookRequest.now).Pairwise (· ≤ ·)) :
    (arrivals ip requests).Pairwise (· ≤ ·) :=
  ordered.sublist (List.filter_sublist.map _)

/-- In every minute at most sixty requests of an address pass exactly if its arrivals are evenly
counted: of two successive counting windows, each of the first sixty requests of the later one
comes more than a minute after the one sixty places before it among the first sixty of both. -/
theorem length_passes_le_iff (ip : String)
    (ordered : (requests.map WebhookRequest.now).Pairwise (· ≤ ·)) :
    (∀ a, (Windows.inClosed 60 a (passes ip .empty requests)).length ≤ 60) ↔
      Windows.EvenlyCounted 60 60 (arrivals ip requests) := by
  rw [passes_eq_admitted, Dict.get?_empty]
  exact Windows.length_inClosed_admitted_le_iff (by decide) (arrivals_sorted ordered)

/-- One request, fifty-nine a minute later, and sixty more a second after these. -/
def burst : List WebhookRequest :=
  ⟨some "10.0.0.1", 0⟩ ::
    (List.replicate 59 ⟨some "10.0.0.1", 60⟩ ++ List.replicate 60 ⟨some "10.0.0.1", 61⟩)

/-- In the minute from the second to the last request of the burst 119 of them pass. -/
theorem not_length_passes_le :
    ¬∀ (ip : String) (requests : List WebhookRequest),
      (requests.map WebhookRequest.now).Pairwise (· ≤ ·) →
        ∀ a, (Windows.inClosed 60 a (passes ip .empty requests)).length ≤ 60 := by
  intro bounded
  have few := bounded "10.0.0.1" burst (by decide +kernel) 60
  exact absurd few (by decide +kernel)

/-- Three requests in a minute are evenly counted, and pass. -/
theorem length_passes_le_iff_few :
    (∀ a, (Windows.inClosed 60 a
        (passes "10.0.0.1" .empty [⟨some "10.0.0.1", 0⟩, ⟨none, 1⟩, ⟨some "10.0.0.1", 1⟩])).length
      ≤ 60) ↔
      Windows.EvenlyCounted 60 60
        (arrivals "10.0.0.1" [⟨some "10.0.0.1", 0⟩, ⟨none, 1⟩, ⟨some "10.0.0.1", 1⟩]) :=
  length_passes_le_iff "10.0.0.1" (by norm_num)

end Webhook

end AgentTelepathy
