/-!
# Metrics

The names under which the gateway shows its numbers. A series of a pool is labelled with the name
of the pool, and a label stands in quotes (**`Series.escape`**).

In a label, quotes, line ends and backslashes are escaped, and what is escaped already stays as it
is: two backslashes are one, escaped, and a backslash in front of a quote belongs to the quote.
-/

namespace SealedGateway

/-- A number that the gateway shows. -/
inductive Series where
  | connectedClients
  | payloadsReceived
  | payloadsProcessed
  | payloadsFailed
  | payloadsSent
  | poolWorkers (pool : String)
  | poolFailures (pool : String)
  deriving DecidableEq, Repr

namespace Series

/-- A backslash that stands for itself, if there is one still to be written. -/
def loneBackslash (pending : Bool) : List Char := if pending then ['\\', '\\'] else []

/-- The characters of a label as they are written between quotes. A backslash is `pending` until
the next character that is not a line end says what it belongs to. -/
def escapeChars (pending : Bool) : List Char → List Char
  | [] => loneBackslash pending
  | '\n' :: s => '\\' :: 'n' :: escapeChars pending s
  | '"' :: s => '\\' :: '"' :: escapeChars false s
  | '\\' :: s => loneBackslash pending ++ escapeChars (!pending) s
  | c :: s => loneBackslash pending ++ c :: escapeChars false s

/-- A label as it is written between quotes. -/
def escape (label : String) : String := String.ofList (escapeChars false label.toList)

/-- A series of the pool of the given name. -/
def ofPool (series pool : String) : String :=
  series ++ "\x7bpool=\"" ++ escape pool ++ "\"\x7d"

/-- The name of a series. -/
def name : Series → String
  | connectedClients => "connected_clients"
  | payloadsReceived => "payloads_received_total"
  | payloadsProcessed => "payloads_processed_success_total"
  | payloadsFailed => "payloads_processed_failed_total"
  | payloadsSent => "payloads_sent_to_client_total"
  | poolWorkers pool => ofPool "pool_workers_active" pool
  | poolFailures pool => ofPool "pool_jobs_failed_total" pool

end Series

/-- The series touched so far, with their numbers. -/
abbrev Metrics := List (Series × Nat)

/-- A counter is shown once it has counted something. -/
def Metrics.counter (series : Series) (n : Nat) : Metrics := if n = 0 then [] else [(series, n)]

end SealedGateway
