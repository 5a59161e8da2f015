import ConfigDiagnostics.Proofs.Course
import ConfigDiagnostics.Proofs.History
import ConfigDiagnostics.Proofs.Refusals
import ConfigDiagnostics.Proofs.Reordering
import ConfigDiagnostics.Proofs.Routing
import ConfigDiagnostics.Registry.Sharing
import ConfigDiagnostics.Sink.Attended

/-!
# Forwarding to a receiver

Where all rules of a registry send to one mailbox, its receiver gets what a collecting sink in the
place of the mailbox would hold, and the outcomes are the same, however the receiver's work falls
between the reports. After the mailbox is closed nothing more gets to the receiver, and events that
have diagnostics are refused.

## Main definitions

* `Attended.delivered`: what a mailbox has taken in
* `Outcome.OnceClosed`: what becomes of an event on a closed mailbox
* `Registry.forward`, `Registry.collect`: routing events to mailboxes, and to one collecting sink
* `Registry.Forwards`: what the first of these comes to, in terms of the second

## Main results

* `Attended.drain_eq`: receiving one by one, and all at once
* `Attended.report_of_isOpen`, `Attended.answers_of_isClosedWith`: reports to a mailbox
* `Registry.route_through_cases`: an event goes to the same rule, to whatever sinks rules refer
* `Registry.inOrder_through_related`: routing to a sink, and to a related one in its place
* `Registry.nothingLost`: where diagnostics go that are reported to a sink, or routed to one
-/

namespace ConfigDiagnostics

/-! ### A mailbox and its receiver -/

namespace Attended

/-- What the mailbox has taken in: what was received from it, and after it what still waits. -/
def delivered (attended : Attended) : List Diagnostic :=
  attended.received ++ attended.mailbox.waiting

/-- The mailbox takes no more diagnostics, and these are what it has taken in. -/
structure IsClosedWith (attended : Attended) (diagnostics : List Diagnostic) : Prop where
  isOpen_eq : attended.mailbox.isOpen = false
  delivered_eq : attended.delivered = diagnostics

/-- Between the two states the receiver was at work, and nothing else. -/
structure Moves (attended after : Attended) : Prop where
  delivered_eq : after.delivered = attended.delivered
  isOpen_eq : after.mailbox.isOpen = attended.mailbox.isOpen

theorem moves_receive (attended : Attended) : attended.Moves attended.receive := by
  obtain ⟨⟨waiting, isOpen⟩, received, receipts⟩ := attended
  cases waiting with
  | nil => exact ⟨rfl, rfl⟩
  | cons first rest => exact ⟨List.append_assoc .., rfl⟩

theorem moves_receiveTimes (attended : Attended) (times : Nat) :
    attended.Moves (attended.receiveTimes times) := by
  induction times generalizing attended with
  | zero => exact ⟨rfl, rfl⟩
  | succ times ih =>
    have hfirst := attended.moves_receive
    have hrest := ih attended.receive
    exact ⟨hrest.delivered_eq.trans hfirst.delivered_eq, hrest.isOpen_eq.trans hfirst.isOpen_eq⟩

theorem moves_attend (attended : Attended) : attended.Moves attended.attend := by
  rw [attend]
  split
  · exact ⟨rfl, rfl⟩
  · obtain ⟨hdelivered, hopen⟩ := moves_receiveTimes { attended with receipts := _ } _
    exact ⟨hdelivered, hopen⟩

/-- What is received one by one is what is taken out at once. -/
theorem drain_eq (attended : Attended) :
    attended.drain =
      { attended with
        mailbox := attended.mailbox.receive.2
        received := attended.received ++ attended.mailbox.receive.1 } := by
  obtain ⟨⟨waiting, isOpen⟩, received, receipts⟩ := attended
  induction waiting generalizing received with
  | nil => simp only [drain, Mailbox.receive, List.length_nil, receiveTimes, List.append_nil]
  | cons first rest ih =>
    refine (ih (received ++ [first])).trans ?_
    simp only [Mailbox.receive, List.append_assoc, List.singleton_append]

theorem received_drain (attended : Attended) : attended.drain.received = attended.delivered := by
  rw [drain_eq]
  rfl

variable {attended last : Attended} {diagnostics : List Diagnostic}

/-- An open mailbox takes in what is reported, after all it has taken in before. -/
theorem report_of_isOpen (h : attended.mailbox.isOpen) (diagnostic : Diagnostic) :
    (report attended diagnostic).1 = .accepted ∧
      (report attended diagnostic).2.mailbox.isOpen ∧
      (report attended diagnostic).2.delivered = attended.delivered ++ [diagnostic] := by
  obtain ⟨hdelivered, hopen⟩ := attended.moves_attend
  rw [h] at hopen
  rw [report, Mailbox.report_of_isOpen hopen, ← hdelivered]
  exact ⟨rfl, hopen, (List.append_assoc ..).symm⟩

theorem report_of_isClosedWith (h : attended.IsClosedWith diagnostics) (diagnostic : Diagnostic) :
    (report attended diagnostic).1 = .refused .closed ∧
      (report attended diagnostic).2.IsClosedWith diagnostics := by
  obtain ⟨hdelivered, hopen⟩ := attended.moves_attend
  rw [h.isOpen_eq] at hopen
  rw [report, Mailbox.report_of_closed hopen]
  exact ⟨rfl, hopen, hdelivered.trans h.delivered_eq⟩

theorem neverCrashes_report : Sink.NeverCrashes report := by
  intro attended diagnostic
  by_cases h : attended.mailbox.isOpen
  · rw [(report_of_isOpen h diagnostic).1]
    exact Reply.noConfusion
  · rw [(report_of_isClosedWith ⟨Bool.eq_false_iff.mpr h, rfl⟩ diagnostic).1]
    exact Reply.noConfusion

/-- A closed mailbox refuses all calls, and takes in nothing. -/
theorem answers_of_isClosedWith (h : attended.IsClosedWith diagnostics) {calls : List Call}
    (hcalls : Sink.Answers report attended calls last) :
    (∀ call ∈ calls, call.2 = .refused .closed) ∧ last.IsClosedWith diagnostics := by
  induction hcalls with
  | nil => exact ⟨List.forall_mem_nil _, h⟩
  | @cons attended next last diagnostic reply calls hreply _ ih =>
    obtain ⟨hrefused, hnext⟩ := report_of_isClosedWith h diagnostic
    rw [hreply] at hrefused hnext
    obtain ⟨hcalls, hlast⟩ := ih hnext
    exact ⟨List.forall_mem_cons.mpr ⟨hrefused, hcalls⟩, hlast⟩

/-- The mailbox is open and has taken in what the collecting sink holds. -/
def Mirrors (attended : Attended) (sink : Collecting) : Prop :=
  attended.mailbox.isOpen ∧ sink.held = attended.delivered

theorem matches_mirrors : Sink.Matches Mirrors report Collecting.report := by
  rintro attended sink diagnostic ⟨hopen, hheld⟩
  obtain ⟨haccepted, hstill, hdelivered⟩ := report_of_isOpen hopen diagnostic
  refine ⟨haccepted, hstill, ?_⟩
  rw [hdelivered, ← hheld]
  rfl

end Attended

/-! ### Findings on an open and on a closed mailbox -/

/-- What becomes of an event on a closed mailbox, where the second becomes of it on a sink that
accepts everything. -/
inductive Outcome.OnceClosed : Outcome → Outcome → Prop
  /-- No finding was sent. -/
  | unsent {outcome} : (∀ count, outcome ≠ .reported count) → OnceClosed outcome outcome
  /-- The finding had no diagnostics. -/
  | nothing : OnceClosed (.reported 0) (.reported 0)
  /-- The finding had some, and each that was sent was refused as the mailbox is closed. -/
  | refused {count refusals} : 0 < count → (∀ refusal ∈ refusals.toList, refusal = .closed) →
      OnceClosed (.refused refusals) (.reported count)

namespace Emission

/-- On an open mailbox a finding comes to the same as on a collecting sink. -/
theorem send_mirrors {attended : Attended} {sink : Collecting}
    (h : attended.Mirrors sink) (dialect : Dialect) (finding : Finding) :
    (send dialect Attended.report attended finding).1.outcome =
        (send dialect Collecting.report sink finding).1.outcome ∧
      Attended.Mirrors (send dialect Attended.report attended finding).2
        (send dialect Collecting.report sink finding).2 := by
  have hagree := send_agree Attended.matches_mirrors dialect finding h
  exact ⟨congrArg Delivery.outcome hagree.result_eq, hagree.related⟩

/-- Where every call was refused by a closed sink, so was every refusal among them. -/
theorem forall_mem_refusals {calls : List Call} (h : ∀ call ∈ calls, call.2 = .refused .closed) :
    ∀ refusal ∈ Call.refusals calls, refusal = .closed := by
  intro refusal hrefusal
  obtain ⟨call, hcall, heq⟩ := List.mem_filterMap.mp hrefusal
  rw [h call hcall] at heq
  exact (Option.some.inj heq).symm

variable {attended : Attended} {diagnostics : List Diagnostic}
  (h : attended.IsClosedWith diagnostics)
include h

theorem sendMalformed_of_isClosedWith (resource message : String) :
    (sendMalformed Attended.report resource message attended).1.outcome.OnceClosed (.reported 1) ∧
      (sendMalformed Attended.report resource message attended).2.IsClosedWith diagnostics := by
  obtain ⟨hreply, hnext⟩ := Attended.report_of_isClosedWith h (about resource message)
  rcases hcall : Attended.report attended (about resource message) with ⟨reply, next⟩
  rw [hcall] at hreply hnext
  subst hreply
  simp only [sendMalformed, hcall]
  exact ⟨.refused Nat.one_pos fun _ => List.mem_singleton.mp, hnext⟩

theorem sendViolations_of_isClosedWith (dialect : Dialect) (resource : String)
    (violations : List Violation) :
    (sendViolations dialect Attended.report resource violations attended).1.outcome.OnceClosed
        (.reported violations.length) ∧
      (sendViolations dialect Attended.report resource violations attended).2.IsClosedWith
        diagnostics := by
  obtain ⟨last, calls, htraced, hcalls, hanswers⟩ :=
    sendViolations_spec Attended.neverCrashes_report dialect resource violations attended
  obtain ⟨hrefused, hlast⟩ := Attended.answers_of_isClosedWith h hanswers
  rw [sendViolations_of_traced htraced]
  refine ⟨?_, hlast⟩
  by_cases hnone : Call.refusals calls.flatten = []
  · -- Then all texts were accepted, so there was none.
    have hall := GroupCalls.flatten_eq_map hcalls hnone
    have hlength := dialect.length_flatten_sentences violations
    cases htexts : (dialect.sentences violations).flatten with
    | nil =>
      rw [htexts] at hlength
      rw [hnone, ← hlength]
      exact .nothing
    | cons text rest =>
      rw [htexts, List.map_cons] at hall
      rw [hall] at hrefused
      cases hrefused _ List.mem_cons_self
  · obtain ⟨refusals, hsome⟩ := Refusals.exists_ofList?_eq hnone
    have hpos : 0 < violations.length := by
      refine List.length_pos_of_ne_nil ?_
      rintro rfl
      cases hcalls
      exact hnone rfl
    rw [ending, hsome]
    refine .refused hpos ?_
    rw [Refusals.ofList?_eq_some_iff.mp hsome]
    exact forall_mem_refusals hrefused

/-- A finding that a collecting sink would hold diagnostics of is refused, and no other. -/
theorem send_of_isClosedWith (dialect : Dialect) (finding : Finding) (sink : Collecting) :
    (send dialect Attended.report attended finding).1.outcome.OnceClosed
        (send dialect Collecting.report sink finding).1.outcome ∧
      (send dialect Attended.report attended finding).2.IsClosedWith diagnostics := by
  cases finding with
  | malformed resource message => exact sendMalformed_of_isClosedWith h resource message
  | violations resource violations =>
    -- The collecting sink reports as many diagnostics as there are violations.
    obtain ⟨last, hcollected, -⟩ := exists_sendViolations_of_acceptsAll Collecting.acceptsAll
      dialect resource violations sink
    rw [send, send, hcollected]
    exact sendViolations_of_isClosedWith h dialect resource violations

end Emission

/-! ### Registries whose rules share a sink -/

namespace Registry

variable {κ α : Type} {registry : Registry κ}

/-- To whatever sinks rules refer, an event is sent by the same rule, or not at all. -/
theorem route_through_cases (registry : Registry κ) (announcement : Announcement) :
    (∃ rule ∈ registry.rules, ∃ finding, ∀ {α σ : Type} [DecidableEq α] (refersTo : κ → α)
      (sink : Sink σ) (states : α → σ),
      (registry.through refersTo).route sink announcement states =
        (((rule.through refersTo).send sink finding states).1.outcome,
          ((rule.through refersTo).send sink finding states).2)) ∨
    ∃ outcome, (∀ count, outcome ≠ .reported count) ∧
      ∀ {α σ : Type} [DecidableEq α] (refersTo : κ → α) (sink : Sink σ) (states : α → σ),
        (registry.through refersTo).route sink announcement states = (outcome, states) := by
  cases hname : EventName.ofName announcement.name with
  | error error =>
    refine .inr ⟨.unreadable error, fun _ => Outcome.noConfusion, ?_⟩
    intro α σ _ refersTo sink states
    simp only [route, hname]
  | ok event =>
    cases hrule : registry.get? event.topic with
    | none =>
      refine .inr ⟨.unheard, fun _ => Outcome.noConfusion, ?_⟩
      intro α σ _ refersTo sink states
      simp only [route, hname, get?_through, hrule, Option.map_none]
    | some rule =>
      cases hfinding : Finding.ofEvent event announcement.payload with
      | error error =>
        refine .inr ⟨.unreadable error, fun _ => Outcome.noConfusion, ?_⟩
        intro α σ _ refersTo sink states
        simp only [route, hname, get?_through, hrule, Option.map_some, hfinding]
      | ok finding =>
        refine .inl ⟨rule, List.mem_of_find?_eq_some hrule, finding, ?_⟩
        intro α σ _ refersTo sink states
        simp only [route, hname, get?_through, hrule, Option.map_some, hfinding]

section

variable [DecidableEq α] {refersTo : κ → α} {address : α}
  (hone : ∀ rule ∈ registry.rules, refersTo rule.sink = address)
include hone

/-- Where all rules refer to one sink, no other is touched. -/
theorem inOrder_through_apply_of_ne {σ : Type} (sink : Sink σ) (announcements : List Announcement)
    (states : α → σ) {index : α} (h : index ≠ address) :
    (Loop.inOrder ((registry.through refersTo).route sink) announcements states).2 index =
      states index := by
  induction announcements generalizing states with
  | nil => rfl
  | cons announcement rest ih =>
    refine (ih _).trans (route_apply_of_ne fun event rule _ hrule => ?_)
    rw [get?_through, Option.map_eq_some_iff] at hrule
    obtain ⟨rule, hrule, rfl⟩ := hrule
    exact (hone rule (List.mem_of_find?_eq_some hrule)).trans_ne h.symm

variable {σ τ : Type} {sink : Sink σ} {other : Sink τ} {R : σ → τ → Prop}
  {Q : Outcome → Outcome → Prop}
  (hunsent : ∀ outcome, (∀ count, outcome ≠ .reported count) → Q outcome outcome)
  (hsend : ∀ dialect finding state state', R state state' →
    Q (Emission.send dialect sink state finding).1.outcome
        (Emission.send dialect other state' finding).1.outcome ∧
      R (Emission.send dialect sink state finding).2 (Emission.send dialect other state' finding).2)
include hunsent hsend

/-- Routing an event to that sink is related to routing it to another in its place, where sending a
finding is. -/
theorem route_through_related (announcement : Announcement) {states : α → σ} {states' : Unit → τ}
    (hstates : R (states address) (states' ())) :
    Q ((registry.through refersTo).route sink announcement states).1
        ((registry.through fun _ => ()).route other announcement states').1 ∧
      R (((registry.through refersTo).route sink announcement states).2 address)
        (((registry.through fun _ => ()).route other announcement states').2 ()) := by
  rcases registry.route_through_cases announcement with
    ⟨rule, hmem, finding, hroute⟩ | ⟨outcome, hunreported, hroute⟩
  · -- The rule is the same with either sink, so all is up to the sending of its finding.
    have haddress : (rule.through refersTo).sink = address := hone rule hmem
    rw [hroute, hroute]
    simp only [Rule.send, haddress, setState_self]
    exact hsend rule.dialect finding _ _ hstates
  · rw [hroute, hroute]
    exact ⟨hunsent outcome hunreported, hstates⟩

/-- So is routing events one after another. -/
theorem inOrder_through_related (announcements : List Announcement) (states : α → σ)
    (states' : Unit → τ) (hstates : R (states address) (states' ())) :
    List.Forall₂ Q
        (Loop.inOrder ((registry.through refersTo).route sink) announcements states).1
        (Loop.inOrder ((registry.through fun _ => ()).route other) announcements states').1 ∧
      R ((Loop.inOrder ((registry.through refersTo).route sink) announcements states).2 address)
        ((Loop.inOrder ((registry.through fun _ => ()).route other) announcements states').2
          ()) := by
  induction announcements generalizing states states' with
  | nil => exact ⟨.nil, hstates⟩
  | cons announcement rest ih =>
    obtain ⟨hfirst, hnext⟩ := route_through_related hone hunsent hsend announcement hstates
    obtain ⟨hrest, hlast⟩ := ih _ _ hnext
    exact ⟨.cons hfirst hrest, hlast⟩

end

section

variable [DecidableEq α]

/-- Routes events one after another to the mailboxes that rules refer to. -/
def forward (registry : Registry κ) (refersTo : κ → α) (announcements : List Announcement)
    (mailboxes : α → Attended) : List Outcome × (α → Attended) :=
  Loop.inOrder ((registry.through refersTo).route Attended.report) announcements mailboxes

/-- Routes events one after another, with one collecting sink for all rules. -/
def collect (registry : Registry κ) (announcements : List Announcement) (sink : Collecting) :
    List Outcome × Collecting :=
  let (outcomes, sinks) := Loop.inOrder ((registry.through fun _ => ()).route Collecting.report)
    announcements fun _ => sink
  (outcomes, sinks ())

/-- What comes of events that are routed by rules which all send to one of the mailboxes. -/
structure Forwards (registry : Registry κ) (refersTo : κ → α) (address : α)
    (announcements : List Announcement) (mailboxes : α → Attended) : Prop where
  /-- An open mailbox stays open. -/
  isOpen : (mailboxes address).mailbox.isOpen →
    ((registry.forward refersTo announcements mailboxes).2 address).mailbox.isOpen
  /-- While it is open, the outcomes are those with a collecting sink in its place. -/
  outcomes_eq : (mailboxes address).mailbox.isOpen →
    (registry.forward refersTo announcements mailboxes).1 =
      (registry.collect announcements ⟨(mailboxes address).delivered⟩).1
  /-- What was received, and after it what still waits, is what the collecting sink holds. -/
  delivered_eq : (mailboxes address).mailbox.isOpen →
    ((registry.forward refersTo announcements mailboxes).2 address).delivered =
      (registry.collect announcements ⟨(mailboxes address).delivered⟩).2.held
  /-- In the end the receiver has all of it. -/
  received_drain : (mailboxes address).mailbox.isOpen →
    ((registry.forward refersTo announcements mailboxes).2 address).drain.received =
      (registry.collect announcements ⟨(mailboxes address).delivered⟩).2.held
  /-- Once it is closed, each event that has diagnostics is refused, and all others end as they do
  with a collecting sink. -/
  outcomes_closed : (mailboxes address).mailbox.isOpen = false → ∀ sink : Collecting,
    List.Forall₂ Outcome.OnceClosed (registry.forward refersTo announcements mailboxes).1
      (registry.collect announcements sink).1
  /-- It stays closed, and nothing more is delivered. -/
  delivered_closed : (mailboxes address).mailbox.isOpen = false →
    ((registry.forward refersTo announcements mailboxes).2 address).IsClosedWith
      (mailboxes address).delivered
  /-- That is so whoever reports to it: every report is refused. -/
  calls_closed : (mailboxes address).mailbox.isOpen = false → ∀ calls last,
    Sink.Answers Attended.report (mailboxes address) calls last →
    (∀ call ∈ calls, call.2 = .refused .closed) ∧
      last.IsClosedWith (mailboxes address).delivered
  /-- All mailboxes but the one are left as they are. -/
  others : ∀ index, index ≠ address →
    (registry.forward refersTo announcements mailboxes).2 index = mailboxes index

variable {refersTo : κ → α} {address : α}
  (hone : ∀ rule ∈ registry.rules, refersTo rule.sink = address)
include hone

theorem forward_of_isOpen (announcements : List Announcement) {mailboxes : α → Attended}
    (h : (mailboxes address).mailbox.isOpen) :
    (registry.forward refersTo announcements mailboxes).1 =
        (registry.collect announcements ⟨(mailboxes address).delivered⟩).1 ∧
      Attended.Mirrors ((registry.forward refersTo announcements mailboxes).2 address)
        (registry.collect announcements ⟨(mailboxes address).delivered⟩).2 := by
  obtain ⟨houtcomes, hmirrors⟩ := inOrder_through_related hone (Q := Eq) (fun _ _ => rfl)
    (fun dialect finding _ _ hmirrors => Emission.send_mirrors hmirrors dialect finding)
    announcements mailboxes (fun _ => ⟨(mailboxes address).delivered⟩) ⟨h, rfl⟩
  exact ⟨List.forall₂_eq_eq_eq ▸ houtcomes, hmirrors⟩

theorem forward_of_isClosedWith (announcements : List Announcement) {mailboxes : α → Attended}
    {diagnostics : List Diagnostic} (h : (mailboxes address).IsClosedWith diagnostics)
    (sink : Collecting) :
    List.Forall₂ Outcome.OnceClosed (registry.forward refersTo announcements mailboxes).1
        (registry.collect announcements sink).1 ∧
      ((registry.forward refersTo announcements mailboxes).2 address).IsClosedWith diagnostics :=
  inOrder_through_related hone (fun _ => .unsent)
    (fun dialect finding _ other hclosed =>
      Emission.send_of_isClosedWith hclosed dialect finding other)
    announcements mailboxes (fun _ => sink) h

/-- Nothing is lost and nothing given out twice, whatever is asked of a collecting sink, and
whichever events are routed by rules that all send to one mailbox. -/
theorem nothingLost (requests : List Collecting.Request) (announcements : List Announcement)
    (mailboxes : α → Attended) :
    Collecting.History requests (Collecting.serve {} requests).1
        (Collecting.serve {} requests).2 ∧
      Forwards registry refersTo address announcements mailboxes := by
  refine ⟨Collecting.history_serve requests, ?_, ?_, ?_, ?_, ?_, ?_, ?_, ?_⟩
  · intro hopen
    exact (forward_of_isOpen hone announcements hopen).2.1
  · intro hopen
    exact (forward_of_isOpen hone announcements hopen).1
  · intro hopen
    exact (forward_of_isOpen hone announcements hopen).2.2.symm
  · intro hopen
    rw [Attended.received_drain]
    exact (forward_of_isOpen hone announcements hopen).2.2.symm
  · intro hclosed sink
    exact (forward_of_isClosedWith hone announcements ⟨hclosed, rfl⟩ sink).1
  · intro hclosed
    exact (forward_of_isClosedWith hone announcements ⟨hclosed, rfl⟩ {}).2
  · intro hclosed calls last
    exact Attended.answers_of_isClosedWith ⟨hclosed, rfl⟩
  · intro index
    exact inOrder_through_apply_of_ne hone Attended.report announcements mailboxes

end

/-- Two rules whose references to a sink were copied from each other. -/
def copied : Registry Nat := ⟨[⟨.babel, 0⟩, ⟨.typescript, 1⟩]⟩

/-- An event with a diagnostic for one of the rules, one for neither, and one with two diagnostics
for the other. -/
def announced : List Announcement :=
  [⟨"babel-config::error::json", .object
      [("error", .object [("message", .string "Unexpected end")]),
        ("resource", .string ".babelrc")]⟩,
    ⟨"webpack-config::error::json", .null⟩,
    ⟨"typescript-config::error::schema", .object
      [("errors", .array
        [(Violation.new ⟨"/files"⟩ .type "should be array").toJson,
          (Violation.new ⟨"/target"⟩ .type "should be string").toJson]),
        ("resource", .string "tsconfig.json")]⟩]

/-- Both references lead to the first mailbox. -/
def leadsTo (_ : Nat) : Nat := 0

/-- Of three diagnostics the receiver gets the first before the last is reported, and two wait. -/
theorem nothingLost_copied :
    (∀ rule ∈ copied.rules, leadsTo rule.sink = 0) ∧
      Collecting.History [.report (Emission.about ".babelrc" "Unexpected end"), .take, .size]
        (Collecting.serve {} [.report (Emission.about ".babelrc" "Unexpected end"), .take, .size]).1
        (Collecting.serve {}
          [.report (Emission.about ".babelrc" "Unexpected end"), .take, .size]).2 ∧
      Forwards copied leadsTo 0 announced (fun _ => { receipts := [0, 0, 1] }) ∧
      ∃ attended, (copied.forward leadsTo announced
          fun _ => { receipts := [0, 0, 1] }).2 0 = attended ∧
        attended.received = [Emission.about ".babelrc" "Unexpected end"] ∧
        attended.mailbox.waiting = [Emission.about "tsconfig.json" "should be array",
          Emission.about "tsconfig.json" "should be string"] := by
  have hone : ∀ rule ∈ copied.rules, leadsTo rule.sink = 0 := fun _ _ => rfl
  obtain ⟨hhistory, hforwards⟩ := nothingLost hone
    [.report (Emission.about ".babelrc" "Unexpected end"), .take, .size] announced
    (fun _ => { receipts := [0, 0, 1] })
  refine ⟨hone, hhistory, hforwards, _, rfl, ?_, ?_⟩
  · decide +kernel
  · decide +kernel

end Registry

end ConfigDiagnostics
