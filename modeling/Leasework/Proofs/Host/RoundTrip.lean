import Leasework.Proofs.Host.Acceptance

/-!
# `Leasework.Proofs.Host.RoundTrip`: loaded settings stand on their own

Settings that are written as a document are read again as they were, whatever notation the document
is put down in: `read?_toDocument` says so for each part of them and for the whole. Only settings
that are set are written, so the columns of a queue are looked up past those that are left out
(`lookup_optionalField`).

Endpoints are filled in when settings are loaded, and an endpoint that is not blank is never filled
in again. So settings that were loaded once need no deployment and no variables any more
(`Host.Settings.ofDocument_toDocument`).
-/

set_option autoImplicit false

namespace Leasework

namespace Document

/-- A text is read again as it was written. -/
@[simp]
theorem text?_text (s : String) : text? (.text s) = some s := rfl

/-- Texts are read again as they were written. -/
theorem listOf?_map_text (texts : List String) :
    listOf? text? (.list (texts.map .text)) = some texts := by
  show (texts.map Document.text).mapM text? = some texts
  induction texts with
  | nil => rfl
  | cons s texts ih =>
    rw [List.map_cons, List.mapM_cons, ih]
    rfl

/-- A column that is there is read. -/
@[simp]
theorem orElse?_some {α : Type} (d : Document) (fallback : α) (read : Document → Option α) :
    orElse? (some d) fallback read = read d := rfl

/-- A number is not nothing. -/
theorem optional?_ofWord (n : UInt64) : optional? word? (ofWord n) = some (some n) := by
  have written := word?_ofWord n
  unfold ofWord at written ⊢
  simp only [optional?, written, Option.map_some]

/-- A truth value is not nothing. -/
theorem optional?_flag (b : Bool) : optional? flag? (.flag b) = some (some b) := rfl

/-- A text is not nothing. -/
theorem optional?_text (s : String) : optional? text? (.text s) = some (some s) := rfl

/-- A column that may be left out is read again as it was written, if what is written is never
nothing. -/
theorem orElse?_map {α : Type} {read : Document → Option α} {write : α → Document}
    (h : ∀ a, optional? read (write a) = some (some a)) (setting : Option α) :
    orElse? (setting.map write) none (optional? read) = some setting := by
  cases setting with
  | none => rfl
  | some a => exact h a

end Document

namespace Crew.Options

/-- Options are read again as they were written. -/
theorem read?_toDocument (rules : ReadingRules) (o : Options) :
    read? rules o.toDocument = some o := by
  -- The kernel is not to decide by itself whether a variable fits 64 bits.
  simp -implicitDefEqProofs [read?, toDocument, Document.row?, List.lookup, Document.word?_ofWord]

end Crew.Options

namespace Handler.Choice

/-- The choice of a handler is read again as it was written. -/
theorem read?_toDocument (rules : ReadingRules) (c : Choice) :
    read? rules c.toDocument = some c := by
  cases c with
  | echo => rfl
  | program path arguments =>
    simp [read?, toDocument, readProgram?, Document.row?, Document.required?, Document.orElse?,
      List.lookup, Document.listOf?_map_text]

end Handler.Choice

namespace Queue

/-- The name of a kind is read as the kind. -/
theorem Kind.read?_name (rules : ReadingRules) (k : Kind) : read? rules (.text k.name) = some k :=
  k.ofName?_name

namespace Settings

/-- A setting that is written only when it is set is found under its name only. -/
theorem lookup_optionalField {α : Type} (name key : String) (write : α → Document)
    (setting : Option α) :
    (optionalField name write setting).lookup key
      = if key = name then setting.map write else none := by
  cases setting with
  | none => simp [optionalField]
  | some a =>
    by_cases h : key = name
    · simp [optionalField, h]
    · simp [optionalField, List.lookup, beq_false_of_ne h, h]

/-- The settings of a queue are read again as they were written. -/
theorem read?_toDocument (rules : ReadingRules) (s : Settings) :
    read? rules s.toDocument = some s := by
  simp -implicitDefEqProofs [read?, toDocument, Document.row?, List.lookup_append, List.lookup,
    lookup_optionalField, Document.required?, Document.word?_ofWord, Kind.read?_name,
    Document.orElse?_map Document.optional?_ofWord, Document.orElse?_map Document.optional?_flag,
    Document.orElse?_map Document.optional?_text]

end Settings

end Queue

namespace Host

/-- An endpoint that is not blank is the one that the queue ends up with. -/
theorem effectiveEndpoint_of_not_isBlank {q : Queue.Settings} (h : ¬ Text.IsBlank q.endpoint)
    (d : Deployment) (vars : Variables) : effectiveEndpoint d vars q = q.endpoint :=
  if_neg (mt Text.allBlank_iff.mp h)

namespace Settings

/-- The two queues are read again as they were written. -/
theorem readQueues?_toDocument (rules : ReadingRules) (requests responses : Queue.Settings) :
    readQueues? rules
        (.table [("request", requests.toDocument), ("response", responses.toDocument)])
      = some (requests, responses) := by
  simp -implicitDefEqProofs [readQueues?, Document.row?, List.lookup, Document.required?,
    Queue.Settings.read?_toDocument]

/-- Settings are read again as they were written. -/
theorem read?_toDocument (rules : ReadingRules) (s : Settings) :
    read? rules s.toDocument = some s := by
  simp -implicitDefEqProofs [read?, toDocument, Document.row?, List.lookup, Document.required?,
    Crew.Options.read?_toDocument, Handler.Choice.read?_toDocument, readQueues?_toDocument]

/-- Settings with two acceptable queues have nothing to be completed. -/
theorem completed_of_acceptable {s : Settings} (requests : s.requests.Acceptable)
    (responses : s.responses.Acceptable) (d : Deployment) (vars : Variables) :
    s.completed d vars = s := by
  unfold completed
  rw [effectiveEndpoint_of_not_isBlank requests.endpoint,
    effectiveEndpoint_of_not_isBlank responses.endpoint]

/-- Settings that have been loaded stand on their own. Written as a document and loaded again, they
are exactly what they were, in whatever deployment and with whatever variables they were loaded
first and are loaded now. Any text that says this document can be the file. -/
theorem ofDocument_toDocument {rules : ReadingRules} {d : Deployment} {vars : Variables}
    {doc : Document} {s : Settings} (loaded : ofDocument rules d vars doc = .ok s) :
    (∀ rules' d' vars', ofDocument rules' d' vars' s.toDocument = .ok s) ∧
      ∀ text, Toml.read? text = some s.toDocument → ∀ d' vars', ofText d' vars' text = .ok s := by
  obtain ⟨requests, responses⟩ := acceptable_of_ofDocument loaded
  have reloaded (rules' : ReadingRules) (d' : Deployment) (vars' : Variables) :
      ofDocument rules' d' vars' s.toDocument = .ok s := by
    rw [((ofDocument_verdict (read?_toDocument rules' s) d' vars').loaded s),
      completed_of_acceptable requests responses]
    exact ⟨rfl, requests, responses⟩
  refine ⟨reloaded, fun text written d' vars' => ?_⟩
  unfold ofText
  rw [written]
  exact reloaded .toml d' vars'

/-- A document of settings that says nearly all that can be said, but leaves out the endpoint of the
request queue. -/
def wordyDocument : Document :=
  .table
    [("worker", .table [("concurrency", .integer 4)]),
      ("handler",
        .table
          [("name", .text "cgi"), ("program", .text "env"), ("args", .list [.text "python3"])]),
      ("queues",
        .table
          [("request",
            .table
              [("kind", .text "sqs"), ("name", .text "in.fifo"), ("lease_seconds", .integer 43200),
                ("poll_interval_ms", .integer 200), ("message_group_id", .text "g")]),
            ("response",
              .table
                [("kind", .text "redis"), ("name", .text "out"),
                  ("endpoint", .text "redis://queue"), ("lease_seconds", .integer 5),
                  ("retry_on_throttled", .flag false), ("throttle_backoff_ms", .integer 9),
                  ("consumer_group", .text "crew")])])]

/-- The settings in that document, with a local backend for the request queue. -/
def wordy : Settings where
  crew := { Crew.Options.default with concurrency := 4 }
  handler := .program "env" ["python3"]
  requests :=
    { Queue.Settings.plain .polling "in.fifo" "http://localhost:4566" 43200 with
      pollMillis := some 200
      messageGroup := some "g" }
  responses :=
    { Queue.Settings.plain .broker "out" "redis://queue" 5 with
      retriesThrottled := some false
      backoffMillis := some 9
      consumerGroup := some "crew" }

/-- Settings that were loaded in development are loaded again in production, where nothing could be
filled in. -/
theorem ofDocument_toDocument_wordy :
    ofDocument .toml .development [] wordyDocument = .ok wordy ∧
      ofDocument .toml .production [] wordy.toDocument = .ok wordy := by
  have loaded : ofDocument .toml .development [] wordyDocument = .ok wordy := rfl
  exact ⟨loaded, (ofDocument_toDocument loaded).1 .toml .production []⟩

end Settings

end Host

end Leasework
