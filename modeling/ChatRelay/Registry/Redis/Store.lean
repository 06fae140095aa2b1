import ChatRelay.Registry.Redis.Command

/-!
# Operations on a Redis server

Each operation is a short exchange of commands and replies with a backend. Lifetimes are checked
before anything is sent: a key lives for at least one second, and the fraction of a second is cut
off. A listing asks for page after page until the cursor is 0 again, and then for all values at
once; keys may come in any order and more than once, and keys that are gone by then are left out.
-/

namespace ChatRelay.Redis

variable {σ : Type} (b : Backend σ)

/-- The whole seconds of a lifetime. -/
def wholeSeconds (millis : Nat) : Except Failure Nat :=
  if millis / 1000 = 0 then .error (.lifetime millis) else .ok (millis / 1000)

/-- Store a value for a lifetime. -/
def putExpiring (key value : String) (millis : Nat) (s : σ) : Except Failure Unit × σ :=
  match wholeSeconds millis with
  | .error e => (.error e, s)
  | .ok seconds =>
    match b.perform s (.setExpiring key seconds value) with
    | (.error e, s) => (.error e, s)
    | (.ok _, s) => (.ok (), s)

/-- Give a key a lifetime from now on, and tell whether it was there. -/
def extend (key : String) (millis : Nat) (s : σ) : Except Failure Bool × σ :=
  match wholeSeconds millis with
  | .error e => (.error e, s)
  | .ok seconds =>
    if 1 <<< 63 ≤ seconds then (.error (.lifetime millis), s)
    else
      match b.perform s (.expire key seconds) with
      | (.error e, s) => (.error e, s)
      | (.ok (.found found), s) => (.ok found, s)
      | (.ok _, s) => (.error .oddReply, s)

/-- Remove a key. -/
def remove (key : String) (s : σ) : Except Failure Unit × σ :=
  match b.perform s (.delete key) with
  | (.error e, s) => (.error e, s)
  | (.ok _, s) => (.ok (), s)

/-- Ask for the page at a cursor: what the listing comes to, or where it goes on with which keys so
far. -/
def scanPage (pattern : String) (cursor : Nat) (earlier : List String) (s : σ) :
    (Nat × List String ⊕ Except Failure (List String)) × σ :=
  match b.perform s (.scan cursor pattern) with
  | (.error e, s) => (.inr (.error e), s)
  | (.ok (.page next keys), s) =>
    (if next = 0 then .inr (.ok (earlier ++ keys)) else .inl (next, earlier ++ keys), s)
  | (.ok _, s) => (.inr (.error .oddReply), s)

/-- The keys of all pages from a cursor on, behind those of earlier pages. How many pages there are
is up to the server. -/
def scanFrom (pattern : String) (cursor : Nat) (earlier : List String) :
    StateM σ (Except Failure (List String)) :=
  repeatM (fun (cursor, earlier) => scanPage b pattern cursor earlier) (cursor, earlier)

/-- Keys in order, each once. -/
def distinct (keys : List String) : List String :=
  (keys.mergeSort fun a b => a ≤ b).eraseReps

/-- The keys that have values, with them. -/
def present (keys : List String) (values : List (Option String)) : List (String × String) :=
  (keys.zip values).filterMap fun (key, value) => value.map fun v => (key, v)

/-- All keys that begin with a text, with their values, in the order of the keys. -/
def entriesWithPrefix (start : String) (s : σ) :
    Except Failure (List (String × String)) × σ :=
  match scanFrom b (start ++ "*") 0 [] s with
  | (.error e, s) => (.error e, s)
  | (.ok keys, s) =>
    match distinct keys with
    | [] => (.ok [], s)
    | key :: keys =>
      match b.perform s (.getMany (key :: keys)) with
      | (.error e, s) => (.error e, s)
      | (.ok (.values values), s) => (.ok (present (key :: keys) values), s)
      | (.ok _, s) => (.error .oddReply, s)

end ChatRelay.Redis
