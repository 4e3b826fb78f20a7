import FileManager.Webhooks

/-! The retries of a delivery: what a cycle of attempts leaves behind whatever the receivers
answer, and when an exception ends it. -/

namespace FileManager.Webhooks
open World

variable (settings : WebhookSettings) (client : HttpClient) (signer : Signer)

/-- What is reported after `made` attempts from `start` on, where only the last may have been
delivered. -/
def report (answer : Nat → Except String Response) (start : Nat) (initial : String) :
    (made : Nat) → WebhookDelivery
  | 0 => ⟨false, start - 1, some initial⟩
  | made + 1 =>
    if isDelivered (answer (start + made)) then ⟨true, start + made, none⟩
    else ⟨false, start + made, some (failureReason (answer (start + made)))⟩

theorem report_succ (answer : Nat → Except String Response) (start : Nat) (initial : String)
    (made : Nat) (hundelivered : isDelivered (answer start) = false) :
    report answer start initial (made + 1) =
      report answer (start + 1) (failureReason (answer start)) made := by
  cases made with
  | zero => simp [report, hundelivered]
  | succ made =>
    have hnext : start + (made + 1) = start + 1 + made := by omega
    simp only [report, hnext]

@[simp] theorem report_attempts (answer : Nat → Except String Response) (initial : String)
    (made : Nat) : (report answer 1 initial made).attempts = made := by
  cases made with
  | zero => rfl
  | succ made =>
    simp only [report]
    split <;> exact Nat.add_comm 1 made

theorem report_lastError_eq_none (answer : Nat → Except String Response) (start : Nat)
    (initial : String) (made : Nat) :
    (report answer start initial made).lastError = none ↔
      (report answer start initial made).delivered = true := by
  cases made with
  | zero => simp [report]
  | succ made =>
    simp only [report]
    split <;> simp

theorem report_lastError (answer : Nat → Except String Response) (initial : String) {made : Nat}
    (hmade : made ≠ 0) (hfailed : (report answer 1 initial made).delivered = false) :
    (report answer 1 initial made).lastError = some (failureReason (answer made)) := by
  cases made with
  | zero => exact absurd rfl hmade
  | succ made =>
    have hlast : 1 + made = made + 1 := Nat.add_comm 1 made
    simp only [report, hlast] at hfailed ⊢
    split at hfailed
    · simp at hfailed
    · rename_i hundelivered
      simp [hundelivered]

/-- The books of a cycle with `remaining` attempts from `start` on. -/
structure Delivery.Accounts (cycle : Delivery) (post : Nat → Post)
    (answer : Nat → Except String Response) (remaining start : Nat) (initial : String) :
    Prop where
  posts_eq : cycle.posts = (List.range' start cycle.posts.length).map post
  posts_le : cycle.posts.length ≤ remaining
  undelivered : ∀ attempt, start ≤ attempt → attempt + 1 < start + cycle.posts.length →
    isDelivered (answer attempt) = false
  waits_atMost : ∀ wait ∈ cycle.waits, wait.AtMost 30
  result_eq : ∀ result, cycle.result = some result →
    result = report answer start initial cycle.posts.length

section Step

variable {post : Nat → Post} {answer : Nat → Except String Response} {remaining start : Nat}
  {initial : String}

theorem Delivery.Accounts.single (urls : List String) (result : Option WebhookDelivery)
    (hresult : ∀ r, result = some r → r = report answer start initial 1) :
    Delivery.Accounts ⟨[post start], urls, [], result⟩ post answer (remaining + 1) start
      initial where
  posts_eq := rfl
  posts_le := by simp
  undelivered := by
    intro attempt hle hlt
    simp only [List.length_singleton] at hlt
    omega
  waits_atMost := by simp
  result_eq := hresult

theorem Delivery.Accounts.cons {rest : Delivery} (urls : List String) {wait : Seconds}
    (hundelivered : isDelivered (answer start) = false) (hwait : wait.AtMost 30)
    (hrest : rest.Accounts post answer remaining (start + 1) (failureReason (answer start))) :
    Delivery.Accounts ⟨post start :: rest.posts, urls, wait :: rest.waits, rest.result⟩ post
      answer (remaining + 1) start initial where
  posts_eq := by
    simp only [List.length_cons, List.range'_succ, List.map_cons]
    rw [← hrest.posts_eq]
  posts_le := by
    have hle := hrest.posts_le
    simpa using hle
  undelivered := by
    intro attempt hle hlt
    simp only [List.length_cons] at hlt
    by_cases hfirst : attempt = start
    · rw [hfirst]
      exact hundelivered
    · exact hrest.undelivered attempt (by omega) (by omega)
  waits_atMost := by
    intro w hw
    rcases List.mem_cons.mp hw with hfirst | hlater
    · rw [hfirst]
      exact hwait
    · exact hrest.waits_atMost w hlater
  result_eq := by
    intro result hresult
    rw [List.length_cons, report_succ answer start initial rest.posts.length hundelivered]
    exact hrest.result_eq result hresult

end Step

theorem sleepAfter_atMost {attempt : Nat} {wait : Seconds}
    (h : sleepAfter settings attempt = some wait) : wait.AtMost 30 := by
  have hbase : settings.retryBackoffSeconds ≠ .nan := by
    intro hnan
    have hnone := (sleepAfter_eq_none settings attempt).mpr (Or.inr hnan)
    simp [hnone] at h
  unfold sleepAfter backoffSeconds at h
  split at h
  · simp at h
  · split at h
    · simp at h
    · simp only [Option.some.injEq] at h
      rw [← h]
      exact Seconds.min_atMost (by simpa using hbase)

theorem deliverAttempts_accounts (receivers : Receivers) (post : Nat → Post) (url : String)
    (remaining start : Nat) (initial : String) :
    (deliverAttempts settings client receivers post url remaining start initial).Accounts post
      (outcome client receivers url) remaining start initial := by
  induction remaining generalizing start initial with
  | zero =>
    unfold deliverAttempts
    constructor
    · rfl
    · exact le_rfl
    · intro attempt hle hlt
      simp only [List.length_nil] at hlt
      omega
    · simp
    · intro result hresult
      exact (Option.some.inj hresult).symm
  | succ remaining ih =>
    unfold deliverAttempts
    simp only
    split
    · rename_i hdelivered
      refine Delivery.Accounts.single _ _ fun result hresult => ?_
      have hlast : isDelivered (outcome client receivers url start) = true := hdelivered
      simpa [report, hlast] using hresult.symm
    · rename_i hundelivered
      have hfirst : isDelivered (outcome client receivers url start) = false := by
        simpa [outcome] using hundelivered
      split
      · refine Delivery.Accounts.single _ _ fun result hresult => ?_
        have hreport : report (outcome client receivers url) start initial 1 =
            ⟨false, start, some (failureReason (outcome client receivers url start))⟩ := by
          simp [report, hfirst]
        rw [hreport]
        exact (Option.some.inj hresult).symm
      · split
        · exact Delivery.Accounts.single _ _ fun result hresult => by simp at hresult
        · rename_i wait hwait
          exact Delivery.Accounts.cons _ hfirst (sleepAfter_atMost settings hwait)
            (ih (start + 1) _)

/-- An exception ends the cycle exactly at a wait that raises, after attempts that failed and
before one that is left. -/
theorem deliverAttempts_result_eq_none (receivers : Receivers) (post : Nat → Post) (url : String)
    (remaining start : Nat) (initial : String) :
    (deliverAttempts settings client receivers post url remaining start initial).result = none ↔
      ∃ attempt, start ≤ attempt ∧ attempt + 1 < start + remaining ∧
        (∀ earlier, start ≤ earlier → earlier ≤ attempt →
          isDelivered (outcome client receivers url earlier) = false) ∧
        sleepAfter settings attempt = none := by
  induction remaining generalizing start initial with
  | zero =>
    simp only [deliverAttempts, reduceCtorEq, false_iff]
    rintro ⟨attempt, hle, hlt, _⟩
    omega
  | succ remaining ih =>
    unfold deliverAttempts
    simp only
    split
    · rename_i hdelivered
      simp only [reduceCtorEq, false_iff]
      rintro ⟨attempt, hle, _, hundelivered, _⟩
      have hfirst : isDelivered (outcome client receivers url start) = false :=
        hundelivered start le_rfl hle
      simp only [outcome] at hfirst
      simp [hfirst] at hdelivered
    · rename_i hundelivered
      have hfirst : isDelivered (outcome client receivers url start) = false := by
        simpa [outcome] using hundelivered
      split
      · simp only [reduceCtorEq, false_iff]
        rintro ⟨attempt, hle, hlt, _⟩
        omega
      · rename_i hmore
        split
        · rename_i hraised
          simp only [true_iff]
          refine ⟨start, le_rfl, by omega, fun earlier hle hle' => ?_, hraised⟩
          have heq : earlier = start := by omega
          rw [heq]
          exact hfirst
        · rename_i wait hwait
          simp only
          rw [ih]
          constructor
          · rintro ⟨attempt, hle, hlt, hall, hraised⟩
            refine ⟨attempt, by omega, by omega, fun earlier hle hle' => ?_, hraised⟩
            by_cases heq : earlier = start
            · rw [heq]
              exact hfirst
            · exact hall earlier (by omega) hle'
          · rintro ⟨attempt, hle, hlt, hall, hraised⟩
            have hne : attempt ≠ start := by
              intro heq
              rw [heq, hwait] at hraised
              simp at hraised
            exact ⟨attempt, by omega, by omega,
              fun earlier hle hle' => hall earlier (by omega) hle', hraised⟩

/-- What a delivery promises its caller: it returns, and what it returns is what happened. -/
structure Delivery.Reliable (cycle : Delivery) (maxAttempts : Int) (deliveryId : String)
    (answer : Nat → Except String Response) : Prop where
  posts_le : (cycle.posts.length : Int) ≤ max maxAttempts 0
  posts_same : ∃ body, ∀ post ∈ cycle.posts, post.body = body ∧ post.deliveryId = deliveryId
  undelivered : ∀ attempt, 1 ≤ attempt → attempt < cycle.posts.length →
    isDelivered (answer attempt) = false
  waits_atMost : ∀ wait ∈ cycle.waits, wait.AtMost 30
  returned : ∃ result, cycle.result = some result ∧
    result.attempts = cycle.posts.length ∧
    (result.delivered = true ↔
      ∃ attempt, 1 ≤ attempt ∧ attempt ≤ cycle.posts.length ∧
        isDelivered (answer attempt) = true) ∧
    (result.lastError = none ↔ result.delivered = true) ∧
    (result.delivered = false → cycle.posts ≠ [] →
      result.lastError = some (failureReason (answer cycle.posts.length)))

theorem report_delivered (answer : Nat → Except String Response) (initial : String) (made : Nat)
    (hundelivered : ∀ attempt, 1 ≤ attempt → attempt < made →
      isDelivered (answer attempt) = false) :
    (report answer 1 initial made).delivered = true ↔
      ∃ attempt, 1 ≤ attempt ∧ attempt ≤ made ∧ isDelivered (answer attempt) = true := by
  cases made with
  | zero =>
    simp only [report, Bool.false_eq_true, false_iff]
    intro ⟨attempt, hle, hle', _⟩
    omega
  | succ made =>
    have hlast : 1 + made = made + 1 := Nat.add_comm 1 made
    simp only [report, hlast]
    by_cases hdelivered : isDelivered (answer (made + 1)) = true
    · simp only [hdelivered, if_true, true_iff]
      exact ⟨made + 1, by omega, le_rfl, hdelivered⟩
    · simp only [hdelivered, Bool.false_eq_true, if_false, false_iff]
      intro ⟨attempt, hle, hle', hearly⟩
      by_cases heq : attempt = made + 1
      · exact hdelivered (heq ▸ hearly)
      · have hfailed := hundelivered attempt hle (by omega)
        simp [hfailed] at hearly

theorem Delivery.Accounts.reliable {cycle : Delivery} {post : Nat → Post}
    {answer : Nat → Except String Response} {initial deliveryId body : String}
    {maxAttempts : Int} {result : WebhookDelivery}
    (h : cycle.Accounts post answer maxAttempts.toNat 1 initial)
    (hpost : ∀ attempt, (post attempt).body = body ∧ (post attempt).deliveryId = deliveryId)
    (hresult : cycle.result = some result) :
    cycle.Reliable maxAttempts deliveryId answer := by
  have hundelivered : ∀ attempt, 1 ≤ attempt → attempt < cycle.posts.length →
      isDelivered (answer attempt) = false :=
    fun attempt hle hlt => h.undelivered attempt hle (by omega)
  constructor
  · have hle := h.posts_le
    omega
  · refine ⟨body, fun p hp => ?_⟩
    rw [h.posts_eq] at hp
    obtain ⟨attempt, _, heq⟩ := List.mem_map.mp hp
    rw [← heq]
    exact hpost attempt
  · exact hundelivered
  · exact h.waits_atMost
  · refine ⟨result, hresult, ?_⟩
    rw [h.result_eq result hresult]
    refine ⟨report_attempts answer initial _, report_delivered answer initial _ hundelivered,
      report_lastError_eq_none answer 1 initial _, fun hfailed hposts => ?_⟩
    have hmade : cycle.posts.length ≠ 0 := by simpa using hposts
    exact report_lastError answer initial hmade hfailed

theorem deliverAttempts_reliable_iff (receivers : Receivers) (post : Nat → Post)
    {deliveryId : String} (url initial : String)
    (hpost : ∀ attempt,
      (post attempt).body = (post 0).body ∧ (post attempt).deliveryId = deliveryId) :
    (deliverAttempts settings client receivers post url settings.maxAttempts.toNat 1
        initial).Reliable settings.maxAttempts deliveryId (outcome client receivers url) ↔
      ¬ (deliverAttempts settings client receivers post url settings.maxAttempts.toNat 1
        initial).result = none := by
  have haccounts := deliverAttempts_accounts settings client receivers post url
    settings.maxAttempts.toNat 1 initial
  constructor
  · intro h hnone
    obtain ⟨result, hresult, _⟩ := h.returned
    simp [hnone] at hresult
  · intro h
    obtain ⟨result, hresult⟩ := Option.ne_none_iff_exists'.mp h
    exact haccounts.reliable hpost hresult

/-- A delivery keeps its promises exactly if the first 1025 posts of more do not all fail, and,
with a NaN for the base of the waits, the first post of more does not. -/
theorem deliver_webhook_reliable_iff (receivers : Receivers) (url event : String) (data : Json)
    (deliveryId : String) :
    (deliverWebhook settings client signer receivers url event data deliveryId).Reliable
        settings.maxAttempts deliveryId (outcome client receivers url) ↔
      ¬ (1026 ≤ settings.maxAttempts ∧ ∀ attempt, 1 ≤ attempt → attempt ≤ 1025 →
        isDelivered (outcome client receivers url attempt) = false) ∧
      ¬ (settings.retryBackoffSeconds = .nan ∧ 2 ≤ settings.maxAttempts ∧
        isDelivered (outcome client receivers url 1) = false) := by
  unfold deliverWebhook
  dsimp only
  apply Iff.trans (deliverAttempts_reliable_iff settings client receivers _ url _ ?same)
  case same =>
    intro attempt
    exact ⟨rfl, rfl⟩
  rw [deliverAttempts_result_eq_none, ← not_or, not_iff_not]
  constructor
  · intro ⟨attempt, hle, hlt, hfailed, hraised⟩
    rcases (sleepAfter_eq_none settings attempt).mp hraised with hlate | hnan
    · exact Or.inl ⟨by omega, fun earlier h h' => hfailed earlier h (by omega)⟩
    · exact Or.inr ⟨hnan, by omega, hfailed 1 le_rfl hle⟩
  · rintro (⟨hmax, hfailed⟩ | ⟨hnan, hmax, hfailed⟩)
    · exact ⟨1025, by omega, by omega, hfailed,
        (sleepAfter_eq_none settings 1025).mpr (Or.inl le_rfl)⟩
    · refine ⟨1, le_rfl, by omega, fun earlier h h' => ?_,
        (sleepAfter_eq_none settings 1).mpr (Or.inr hnan)⟩
      have heq : earlier = 1 := by omega
      rw [heq]
      exact hfailed

/-- More attempts than an exponent of a float. -/
def patientSettings : WebhookSettings := { hookSettings with maxAttempts := 1026 }

def refusing : Receivers := fun _ _ _ => .ok ⟨500, none⟩

theorem outcome_refusing (attempt : Nat) :
    outcome followingClient refusing hookUrl attempt = .ok ⟨500, none⟩ := rfl

/-- The loop raises after 1025 refusals instead of reporting them. -/
theorem patient_delivery_raises :
    (deliverWebhook patientSettings followingClient plainSigner refusing hookUrl
      "video.completed" .null "d1").result = none ∧
    ¬ (deliverWebhook patientSettings followingClient plainSigner refusing hookUrl
      "video.completed" .null "d1").Reliable patientSettings.maxAttempts "d1"
        (outcome followingClient refusing hookUrl) := by
  have hraised : (deliverWebhook patientSettings followingClient plainSigner refusing hookUrl
      "video.completed" .null "d1").result = none := by
    unfold deliverWebhook
    refine (deliverAttempts_result_eq_none patientSettings followingClient refusing _ hookUrl
      _ 1 _).mpr ⟨1025, by decide, by decide, fun earlier _ _ => ?_, ?_⟩
    · rw [outcome_refusing]
      rfl
    · exact (sleepAfter_eq_none patientSettings 1025).mpr (Or.inl le_rfl)
  refine ⟨hraised, fun h => ?_⟩
  obtain ⟨result, hresult, _⟩ := h.returned
  rw [hraised] at hresult
  cases hresult

end FileManager.Webhooks
