import SecureReview.Proofs.Json.Reading
import SecureReview.Proofs.Webhook.Signature
import SecureReview.Proofs.World.Effect
import SecureReview.Webhook.Event
/-!
# What a request queues

`Queues` says what a handling adds to the queue, on every way through it:
the tasks with a property, at most one of them, and none where it fails.
It is proved along the steps of the handlers, and `Asks` says for which
news a task is queued, and which. **Only a signed request queues a task**,
and a request that is not signed is refused before its body is read
(`receive_queues_iff_signed_news`).
-/

namespace SecureReview.Webhook

variable {α : Type} {payload event v : Json} {task : Task} {P Q : Task → Prop} {x y : Handling Json}

theorem isOneOf_iff {texts : List String} : isOneOf v texts = true ↔ ∃ t ∈ texts, v = .str t := by
  simp only [isOneOf, List.any_eq_true, Json.same_str]

/-! ## Along a handling -/

/-- A handling adds the tasks with a property to the queue. There is at
most one, and none if the handling fails. -/
def Queues (x : Handling Json) (P : Task → Prop) : Prop :=
  ∀ q, ∃ r tasks, x.run.run q = (r, q ++ tasks) ∧ tasks.length ≤ 1 ∧
    (∀ task, task ∈ tasks ↔ P task) ∧ ∀ e, r = .error e → tasks = []

theorem Queues.congr (h : Queues x P) (hiff : ∀ task, P task ↔ Q task) : Queues x Q := by
  intro q
  obtain ⟨r, tasks, hrun, hlength, hmem, herror⟩ := h q
  exact ⟨r, tasks, hrun, hlength, fun task => (hmem task).trans (hiff task), herror⟩

/-- An answer or a failure alone queues nothing. -/
theorem queues_nothing {r : Except Failure Json} (h : ∀ q, x.run.run q = (r, q)) :
    Queues x fun _ => False := by
  intro q
  refine ⟨r, [], by rw [h, List.append_nil], Nat.zero_le 1, ?_, fun _ _ => rfl⟩
  intro task
  exact iff_of_false List.not_mem_nil not_false

theorem queues_pure (a : Json) : Queues (pure a) fun _ => False :=
  queues_nothing fun _ => Effect.run_pure

theorem queues_throw (e : Failure) : Queues (throw e) fun _ => False :=
  queues_nothing fun _ => Effect.run_throw

theorem queues_queue (t : Task) (a : Json) : Queues (queue t >>= fun _ => pure a) (· = t) := by
  intro q
  refine ⟨.ok a, [t], rfl, Nat.le_refl 1, fun task => List.mem_singleton, ?_⟩
  intro e herror
  cases herror

/-- After a reading the rest decides, and nothing is queued if it fails. -/
theorem queues_reading {f : α → Handling Json} {P : α → Task → Prop} (r : Except Failure α)
    (h : ∀ a, Queues (f a) (P a)) :
    Queues (Effect.ofExcept r >>= f) fun task => ∃ a, r = .ok a ∧ P a task := by
  cases r with
  | error e =>
    refine (queues_nothing fun q => Effect.run_ofExcept_bind_error rfl).congr fun task => ?_
    simp
  | ok a =>
    intro q
    obtain ⟨r, tasks, hrun, hlength, hmem, herror⟩ := h a q
    refine ⟨r, tasks, (Effect.run_ofExcept_bind_ok rfl).trans hrun, hlength, ?_, herror⟩
    intro task
    simp [hmem]

theorem Queues.ite {c : Prop} [Decidable c] (hx : Queues x P) (hy : Queues y Q) :
    Queues (if c then x else y) fun task => c ∧ P task ∨ ¬ c ∧ Q task := by
  split
  · next hc => exact hx.congr fun task => by simp [hc]
  · next hc => exact hy.congr fun task => by simp [hc]

/-! ## News that ask for a scan -/

/-- The news of an event ask for a task. What the task is told stands in
the payload, and is null where that has no such part. A part that has
parts of its own must be a record, if it is there. -/
inductive Asks (payload event : Json) : Task → Prop
  /-- A pull request was opened, or got new commits. -/
  | pullRequest {action : String} (hevent : event = .str "pull_request")
      (haction : payload.part "action" = .str action)
      (hnew : action = "opened" ∨ action = "synchronize")
      (hpull : (payload.partOr "pull_request" (.obj [])).IsRecord)
      (hhead : ((payload.partOr "pull_request" (.obj [])).partOr "head" (.obj [])).IsRecord)
      (hrepo : (payload.partOr "repository" (.obj [])).IsRecord) :
      Asks payload event (.pullRequest
        ((payload.part "repository").part "full_name")
        ((payload.part "pull_request").part "number")
        (((payload.part "pull_request").part "head").part "sha"))
  /-- Something was pushed to the main branch. -/
  | push {ref : String} (hevent : event = .str "push") (href : payload.part "ref" = .str ref)
      (hmain : ref = "refs/heads/main" ∨ ref = "refs/heads/master")
      (hrepo : (payload.partOr "repository" (.obj [])).IsRecord) :
      Asks payload event (.push
        ((payload.part "repository").part "full_name") (payload.part "after"))

theorem queues_onPullRequest : Queues (onPullRequest payload) (Asks payload (.str "pull_request")) := by
  -- the steps in order; a task is queued if every reading on the way gives a value
  refine Queues.congr (queues_reading _ fun action => Queues.ite (queues_pure _) <|
    queues_reading _ fun pull => queues_reading _ fun repo => queues_reading _ fun number =>
    queues_reading _ fun name => queues_reading _ fun head => queues_reading _ fun sha =>
    queues_queue _ _) ?_
  intro task
  simp only [Json.get_eq_ok, Json.getD_eq_ok, Bool.not_eq_true', Bool.not_eq_false, isOneOf_iff,
    and_false, false_or]
  constructor
  · rintro ⟨_, ⟨-, rfl⟩, ⟨action, hnew, haction⟩, _, ⟨-, rfl⟩, _, ⟨-, rfl⟩, _, ⟨hpull, rfl⟩,
      _, ⟨hrepo, rfl⟩, _, ⟨-, rfl⟩, _, ⟨hhead, rfl⟩, rfl⟩
    simp only [Json.part_partOr]
    exact .pullRequest rfl haction (by simpa using hnew) hpull hhead hrepo
  · rintro (⟨-, haction, hnew, hpull, hhead, hrepo⟩ | ⟨hevent, -, -, -⟩)
    case push => simp at hevent
    -- a payload with an action is a record, so its other parts can be read
    have hpayload := Json.isRecord_of_part haction
    simp only [← Json.part_partOr]
    exact ⟨_, ⟨hpayload, rfl⟩, ⟨_, by simpa using hnew, haction⟩, _, ⟨hpayload, rfl⟩,
      _, ⟨hpayload, rfl⟩, _, ⟨hpull, rfl⟩, _, ⟨hrepo, rfl⟩, _, ⟨hpull, rfl⟩, _, ⟨hhead, rfl⟩, rfl⟩

theorem queues_onPush : Queues (onPush payload) (Asks payload (.str "push")) := by
  refine Queues.congr (queues_reading _ fun repo => queues_reading _ fun ref =>
    Queues.ite (queues_pure _) <| queues_reading _ fun name => queues_reading _ fun sha =>
    queues_queue _ _) ?_
  intro task
  simp only [Json.get_eq_ok, Json.getD_eq_ok, Bool.not_eq_true', Bool.not_eq_false, isOneOf_iff,
    and_false, false_or]
  constructor
  · rintro ⟨_, ⟨-, rfl⟩, _, ⟨-, rfl⟩, ⟨ref, hmain, href⟩, _, ⟨hrepo, rfl⟩, _, ⟨-, rfl⟩, rfl⟩
    rw [Json.part_partOr]
    exact .push rfl href (by simpa using hmain) hrepo
  · rintro (⟨hevent, -, -, -, -, -⟩ | ⟨-, href, hmain, hrepo⟩)
    case pullRequest => simp at hevent
    have hpayload := Json.isRecord_of_part href
    rw [← Json.part_partOr]
    exact ⟨_, ⟨hpayload, rfl⟩, _, ⟨hpayload, rfl⟩, ⟨_, by simpa using hmain, href⟩,
      _, ⟨hrepo, rfl⟩, _, ⟨hpayload, rfl⟩, rfl⟩

/-- **An event queues the task that its news ask for.** -/
theorem queues_onEvent : Queues (onEvent event payload) (Asks payload event) := by
  refine Queues.congr (Queues.ite queues_onPullRequest <| Queues.ite queues_onPush <|
    Queues.ite (queues_pure _) (queues_pure _)) ?_
  intro task
  simp only [Json.same_str, and_false, or_false]
  constructor
  · rintro (⟨rfl, hasks⟩ | ⟨-, rfl, hasks⟩)
    · exact hasks
    · exact hasks
  · intro hasks
    cases hasks with
    | pullRequest hevent haction hnew hpull hhead hrepo =>
      exact Or.inl ⟨hevent, .pullRequest rfl haction hnew hpull hhead hrepo⟩
    | push hevent href hmain hrepo =>
      exact Or.inr ⟨by simp [hevent], hevent, .push rfl href hmain hrepo⟩

/-! ## Requests -/

theorem queues_receive (s : Settings) (read : List UInt8 → Except Failure Json) (headers : Fields)
    (body : List UInt8) : Queues (receive s read headers body) fun task =>
      isSigned s.githubWebhookSecret body (header headers "X-Hub-Signature-256") = .ok true ∧
      ∃ payload, read body = .ok payload ∧ Asks payload (header headers "X-GitHub-Event") task := by
  refine Queues.congr (queues_reading _ fun signed => Queues.ite (queues_throw _) <|
    queues_reading _ fun payload => queues_onEvent) ?_
  intro task
  simp

/-- A request that is not signed is refused, whatever its body. -/
theorem run_receive_of_unsigned {s : Settings} {headers : Fields} {body : List UInt8}
    (h : isSigned s.githubWebhookSecret body (header headers "X-Hub-Signature-256") = .ok false)
    (read : List UInt8 → Except Failure Json) (q : List Task) :
    (receive s read headers body).run.run q = (.error (.refused 401 "Invalid signature"), q) :=
  Effect.run_ofExcept_bind_ok h

/-- **Only signed requests queue a task**, and at most one. Under a secret
a request with any headers and any bytes as its body queues a task
exactly if it counts as signed, which means that its header carries the
signature of the body, and its payload is news that ask for the task. A
request that fails queues nothing, and one that is not signed is refused
with status 401, whatever its body. -/
theorem receive_queues_iff_signed_news {s : Settings} {secret : String}
    (hsecret : s.githubWebhookSecret = some secret) (hset : secret ≠ "")
    (read : List UInt8 → Except Failure Json) (headers : Fields) (body : List UInt8) :
    let signed := isSigned s.githubWebhookSecret body (header headers "X-Hub-Signature-256")
    let result := (receive s read headers body).run.run []
    result.2.length ≤ 1 ∧
    (∀ task, task ∈ result.2 ↔ signed = .ok true ∧ ∃ payload, read body = .ok payload ∧
      Asks payload (header headers "X-GitHub-Event") task) ∧
    (signed = .ok true ↔ Carries secret body (header headers "X-Hub-Signature-256")) ∧
    (∀ e, result.1 = .error e → result.2 = []) ∧
    (signed = .ok false → result = (.error (.refused 401 "Invalid signature"), [])) := by
  intro signed result
  obtain ⟨r, tasks, hrun, hlength, hmem, herror⟩ := queues_receive s read headers body []
  have hresult : result = (r, tasks) := hrun
  have hsigned : signed = .ok true ↔ Carries secret body (header headers "X-Hub-Signature-256") := by
    simp only [signed, hsecret]
    exact isSigned_eq_true_iff hset
  refine ⟨?_, ?_, hsigned, ?_, fun hfalse => run_receive_of_unsigned hfalse read []⟩
  · rw [hresult]
    exact hlength
  · rw [hresult]
    exact hmem
  · rw [hresult]
    exact herror

/-- The payload of a push to the main branch. -/
def mainPush : Json :=
  .obj [("ref", .str "refs/heads/main"), ("after", .str "def"),
    ("repository", .obj [("full_name", .str "o/r")])]

/-- **A signed push is queued, and an unsigned one is refused.** -/
theorem signed_push_is_queued :
    let body := Text.encodeUtf8 mainPush.compact
    let received := fun headers => (receive { githubWebhookSecret := some "key" }
      (fun _ => Json.read mainPush.compact) headers body).run.run []
    Task.push (.str "o/r") (.str "def") ∈ (received [("X-GitHub-Event", .str "push"),
      ("X-Hub-Signature-256", .str (scheme ++ signature "key" body))]).2 ∧
    received [("X-GitHub-Event", .str "push")] = (.error (.refused 401 "Invalid signature"), []) := by
  intro body received
  have hkey : "key" ≠ "" := by decide
  have hparse : Json.read mainPush.compact = .ok mainPush := by
    rw [Json.read, Json.parseString_compact (by decide)]
  have href : mainPush.part "ref" = .str "refs/heads/main" := rfl
  have hasks : Asks mainPush (.str "push") (.push (.str "o/r") (.str "def")) :=
    .push rfl href (Or.inl rfl) ⟨_, rfl⟩
  constructor
  · obtain ⟨-, hqueued, hsigned, -⟩ := receive_queues_iff_signed_news
      (s := { githubWebhookSecret := some "key" }) rfl hkey (fun _ => Json.read mainPush.compact)
      [("X-GitHub-Event", .str "push"),
        ("X-Hub-Signature-256", .str (scheme ++ signature "key" body))] body
    exact (hqueued _).2 ⟨hsigned.2 carries_signature, mainPush, hparse, hasks⟩
  · obtain ⟨-, -, -, -, hrefused⟩ := receive_queues_iff_signed_news
      (s := { githubWebhookSecret := some "key" }) rfl hkey (fun _ => Json.read mainPush.compact)
      [("X-GitHub-Event", .str "push")] body
    exact hrefused rfl

end SecureReview.Webhook
