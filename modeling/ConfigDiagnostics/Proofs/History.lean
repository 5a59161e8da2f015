import ConfigDiagnostics.Sink.Request
import Mathlib.Data.List.DropRight

/-!
# The history of a collecting sink

Whatever is asked of a collecting sink, nothing that was reported to it is lost and nothing is given
out twice: what was taken and what is still held are what was reported, in order. What a request is
answered by follows from the requests before it alone.

## Main definitions

* `Collecting.reported`, `Collecting.sinceTake`: what requests report, in all and after the last
  taking
* `Collecting.taken`: what was given out for good
* `Collecting.History`: what a sink gives for requests

## Main results

* `Collecting.respond_conserves`, `Collecting.serve_conserves`: nothing is lost or given out twice,
  in one request and in all
* `Collecting.held_serve`: a sink holds what was reported since it was last emptied
* `Collecting.history_serve`: the history of requests to a new sink
-/

namespace ConfigDiagnostics.Collecting

/-- The diagnostic that a request reports. -/
def Request.reported? : Request → Option Diagnostic
  | report diagnostic => some diagnostic
  | _ => none

/-- What requests report, in order. -/
def reported (requests : List Request) : List Diagnostic :=
  requests.filterMap Request.reported?

/-- What requests report after the last of them that takes all out. -/
def sinceTake (requests : List Request) : List Diagnostic :=
  reported (requests.rtakeWhile fun request => request ≠ .take)

/-- The diagnostics that an exchange gives out for good. -/
def taken? : Exchange → Option (List Diagnostic)
  | (.take, .diagnostics given) => some given
  | _ => none

/-- The lists that were taken, in order. -/
def taken (exchanges : List Exchange) : List (List Diagnostic) :=
  exchanges.filterMap taken?

theorem reported_append (earlier later : List Request) :
    reported (earlier ++ later) = reported earlier ++ reported later :=
  List.filterMap_append

theorem taken_append (earlier later : List Exchange) :
    taken (earlier ++ later) = taken earlier ++ taken later :=
  List.filterMap_append

theorem sinceTake_concat_take (requests : List Request) : sinceTake (requests ++ [.take]) = [] := by
  rw [sinceTake, List.rtakeWhile_concat_neg]
  · rfl
  · decide

theorem sinceTake_concat_of_ne {request : Request} (h : request ≠ .take)
    (requests : List Request) :
    sinceTake (requests ++ [request]) = sinceTake requests ++ reported [request] := by
  rw [sinceTake, List.rtakeWhile_concat_pos (fun request => request ≠ .take) requests request
    (decide_eq_true h), reported_append]
  rfl

variable (sink : Collecting)

/-- A request takes nothing out but what it gives, and puts nothing in but what it reports. -/
theorem respond_conserves (request : Request) :
    (taken [(request, (sink.respond request).1)]).flatten ++ (sink.respond request).2.held =
      sink.held ++ reported [request] := by
  cases request with
  | report diagnostic => rfl
  | take => simp [taken, taken?, respond, Collecting.take, reported, Request.reported?]
  | _ => exact (List.append_nil _).symm

theorem serve_cons (request : Request) (rest : List Request) :
    sink.serve (request :: rest) =
      ((request, (sink.respond request).1) :: ((sink.respond request).2.serve rest).1,
        ((sink.respond request).2.serve rest).2) := rfl

theorem serve_conserves (requests : List Request) :
    (taken (sink.serve requests).1).flatten ++ (sink.serve requests).2.held =
      sink.held ++ reported requests := by
  -- What is taken comes out at the front of what was held, so the sink is any at each request.
  induction requests generalizing sink with
  | nil => exact (List.append_nil _).symm
  | cons request rest ih =>
    have hstep := sink.respond_conserves request
    have hrest := ih (sink.respond request).2
    rw [serve_cons, ← List.singleton_append, taken_append, List.flatten_append, List.append_assoc,
      hrest, ← List.append_assoc, hstep, List.append_assoc, ← reported_append,
      List.singleton_append]

/-- Later requests are answered by the sink as the earlier ones left it. -/
theorem serve_append (earlier later : List Request) :
    sink.serve (earlier ++ later) =
      ((sink.serve earlier).1 ++ ((sink.serve earlier).2.serve later).1,
        ((sink.serve earlier).2.serve later).2) := by
  induction earlier generalizing sink with
  | nil => rfl
  | cons request rest ih => rw [List.cons_append, serve_cons, ih]; rfl

theorem map_fst_serve (requests : List Request) :
    (sink.serve requests).1.map Prod.fst = requests := by
  induction requests generalizing sink with
  | nil => rfl
  | cons request rest ih => rw [serve_cons, List.map_cons, ih]

/-- A new sink holds what was reported to it since it was last emptied. -/
theorem held_serve (requests : List Request) :
    (serve {} requests).2.held = sinceTake requests := by
  induction requests using List.reverseRecOn with
  | nil => rfl
  | append_singleton requests request ih =>
    rw [serve_append, serve_cons]
    by_cases htake : request = .take
    · subst htake
      rw [sinceTake_concat_take]
      rfl
    · -- Any other request leaves what is held in place, and gives nothing out for good.
      have hstep := (serve {} requests).2.respond_conserves request
      rw [ih] at hstep
      rw [sinceTake_concat_of_ne htake, ← hstep]
      cases request with
      | take => exact absurd rfl htake
      | _ => rfl

/-- What is given for a request follows from what was reported since the last taking before it. -/
theorem response_eq_of_serve {requests : List Request} {earlier later : List Exchange}
    {request : Request} {response : Response}
    (h : (serve {} requests).1 = earlier ++ (request, response) :: later) :
    response = (respond ⟨sinceTake (earlier.map Prod.fst)⟩ request).1 := by
  -- The exchanges before this one are what the sink gave for the requests before this one.
  have hrequests := map_fst_serve {} requests
  rw [h, List.map_append, List.map_cons] at hrequests
  rw [← hrequests, serve_append, serve_cons] at h
  have hlength : (serve {} (earlier.map Prod.fst)).1.length = earlier.length := by
    rw [← List.length_map Prod.fst, map_fst_serve, List.length_map]
  obtain ⟨-, hexchange⟩ := List.append_inj h hlength
  have hresponse := (Prod.mk.inj (List.cons.inj hexchange).1).2
  rw [← hresponse, ← held_serve]

/-- What a new collecting sink gives for requests, one after another, and how it is left. -/
structure History (requests : List Request) (exchanges : List Exchange) (last : Collecting) :
    Prop where
  /-- Each request is answered. -/
  map_fst_eq : exchanges.map Prod.fst = requests
  /-- What was taken, and after it what is held, is what was reported, in order. -/
  conserved : (taken exchanges).flatten ++ last.held = reported requests
  /-- What is held is what was reported since all was last taken. -/
  held_eq : last.held = sinceTake requests
  /-- Every report is accepted. -/
  report_eq : ∀ earlier diagnostic response later,
    exchanges = earlier ++ (.report diagnostic, response) :: later → response = .reply .accepted
  /-- All that was reported since the last taking is taken. -/
  take_eq : ∀ earlier response later, exchanges = earlier ++ (.take, response) :: later →
    response = .diagnostics (sinceTake (earlier.map Prod.fst))
  /-- The same is shown without being taken. -/
  diagnostics_eq : ∀ earlier response later,
    exchanges = earlier ++ (.diagnostics, response) :: later →
    response = .diagnostics (sinceTake (earlier.map Prod.fst))
  /-- Those about a resource are shown in their order. -/
  forResource_eq : ∀ earlier resource response later,
    exchanges = earlier ++ (.forResource resource, response) :: later →
    response = .diagnostics ((sinceTake (earlier.map Prod.fst)).filter fun diagnostic =>
      diagnostic.resource = resource)
  /-- The size is the number of reports since the last taking. -/
  size_eq : ∀ earlier response later, exchanges = earlier ++ (.size, response) :: later →
    response = .count (sinceTake (earlier.map Prod.fst)).length
  isEmpty_eq : ∀ earlier response later, exchanges = earlier ++ (.isEmpty, response) :: later →
    response = .truth (sinceTake (earlier.map Prod.fst)).isEmpty

/-- Whatever is asked of a new collecting sink, this is its history. -/
theorem history_serve (requests : List Request) :
    History requests (serve {} requests).1 (serve {} requests).2 where
  map_fst_eq := map_fst_serve {} requests
  conserved := serve_conserves {} requests
  held_eq := held_serve requests
  report_eq _ _ _ _ := response_eq_of_serve
  take_eq _ _ _ := response_eq_of_serve
  diagnostics_eq _ _ _ := response_eq_of_serve
  forResource_eq _ _ _ _ := response_eq_of_serve
  size_eq _ _ _ := response_eq_of_serve
  isEmpty_eq _ _ _ := response_eq_of_serve

/-- What was reported before the taking is not counted after it. -/
example (first second : Diagnostic) :
    (serve {} [.report first, .size, .take, .report second, .diagnostics, .size]).1.map Prod.snd =
      [.reply .accepted, .count 1, .diagnostics [first], .reply .accepted, .diagnostics [second],
        .count 1] := rfl

end ConfigDiagnostics.Collecting
