import ConfigDiagnostics.Proofs.Grouping
import ConfigDiagnostics.Proofs.Simulation
import Mathlib.Data.List.Forall2

/-!
# What is sent about violations

The texts of a group are sent up to the first that is refused, and every group is sent, whatever
became of the groups before it. So the calls on a sink can be divided by groups, and how the
sending ends follows from the refusals among them.

## Main definitions

* `Emission.GroupCalls`: calls that send the texts of one group up to the first refusal
* `Emission.ending`: how the sending of violations ends, by the refusals that were met
* `Emission.Account`: what the sending of violations amounts to

## Main results

* `Emission.sendGroups_spec`: all groups are sent, each on the state the groups before it left
* `Emission.sendViolations_spec`: the calls of all groups, and how the sending ends
* `Emission.exists_account`: sending violations to a sink that never crashes has an account
-/

namespace ConfigDiagnostics.Emission

variable {σ : Type} {resource : String}

/-- The calls send the texts of a group in order, up to the first that is refused. Each call names
the resource, no place in it, and the text. -/
inductive GroupCalls (resource : String) : List String → List Call → Prop
  | nil : GroupCalls resource [] []
  | accepted {text rest calls} : GroupCalls resource rest calls →
      GroupCalls resource (text :: rest) ((⟨resource, none, text⟩, .accepted) :: calls)
  | refused {text rest refusal} :
      GroupCalls resource (text :: rest) [(⟨resource, none, text⟩, .refused refusal)]

namespace GroupCalls

variable {texts : List String} {calls : List Call}

theorem length_refusals_le_one (h : GroupCalls resource texts calls) :
    (Call.refusals calls).length ≤ 1 := by
  induction h with
  | nil => exact Nat.zero_le 1
  | accepted _ ih => rwa [Call.refusals_cons_accepted]
  | refused => exact Nat.le_refl 1

/-- Without a refusal all texts are sent. -/
theorem eq_map (h : GroupCalls resource texts calls) (hnone : Call.refusals calls = []) :
    calls = texts.map fun text => (⟨resource, none, text⟩, .accepted) := by
  induction h with
  | nil => rfl
  | accepted _ ih =>
    rw [Call.refusals_cons_accepted] at hnone
    rw [List.map_cons, ← ih hnone]
  | refused => exact absurd hnone (List.cons_ne_nil _ _)

theorem forall_length_refusals_le_one {groups : List (List String)} {calls : List (List Call)}
    (h : List.Forall₂ (GroupCalls resource) groups calls) :
    ∀ group ∈ calls, (Call.refusals group).length ≤ 1 := by
  induction h with
  | nil => exact fun _ hgroup => absurd hgroup List.not_mem_nil
  | cons hgroup _ ih => exact List.forall_mem_cons.mpr ⟨hgroup.length_refusals_le_one, ih⟩

/-- Without a refusal all texts of all groups are sent. -/
theorem flatten_eq_map {groups : List (List String)} {calls : List (List Call)}
    (h : List.Forall₂ (GroupCalls resource) groups calls)
    (hnone : Call.refusals calls.flatten = []) :
    calls.flatten = groups.flatten.map fun text => (⟨resource, none, text⟩, .accepted) := by
  induction h with
  | nil => rfl
  | cons hgroup _ ih =>
    rw [List.flatten_cons, Call.refusals_append, List.append_eq_nil_iff] at hnone
    rw [List.flatten_cons, List.flatten_cons, List.map_append, ← hgroup.eq_map hnone.1,
      ← ih hnone.2]

end GroupCalls

variable {sink : Sink σ}

/-- Sending a group makes the calls of the group. It ends in a refusal if there is one among them,
and else in acceptance. -/
theorem sendGroup_spec (hsink : sink.NeverCrashes) (resource : String) (texts : List String)
    (state : σ) (trace : List Call) :
    ∃ reply last calls,
      sendGroup sink.traced resource texts (state, trace) = (reply, last, trace ++ calls) ∧
      GroupCalls resource texts calls ∧ sink.Answers state calls last ∧
      reply ≠ .crashed ∧ Call.refusals calls = reply.refusal?.toList := by
  induction texts generalizing state trace with
  | nil =>
    refine ⟨.accepted, state, [], ?_, .nil, .nil, Reply.noConfusion, rfl⟩
    rw [List.append_nil]
    rfl
  | cons text rest ih =>
    -- What was traced before is kept in front, so the induction is for every trace and state.
    have hne := hsink state ⟨resource, none, text⟩
    rcases hreply : sink state ⟨resource, none, text⟩ with ⟨reply, next⟩
    rw [hreply] at hne
    have htraced : sink.traced (state, trace) ⟨resource, none, text⟩ =
        (reply, next, trace ++ [(⟨resource, none, text⟩, reply)]) := by
      simp only [Sink.traced, hreply]
    cases reply with
    | accepted =>
      obtain ⟨reply, last, calls, hrest, hcalls, hanswers, hcrashed, hrefusals⟩ :=
        ih next (trace ++ [(⟨resource, none, text⟩, .accepted)])
      refine ⟨reply, last, _ :: calls, ?_, hcalls.accepted, .cons hreply hanswers, hcrashed,
        hrefusals⟩
      simp only [sendGroup, about, htraced]
      rw [hrest, List.append_assoc, List.singleton_append]
    | refused refusal =>
      refine ⟨.refused refusal, next, _, ?_, .refused, .cons hreply .nil, Reply.noConfusion, rfl⟩
      simp only [sendGroup, about, htraced]
    | crashed => exact absurd rfl hne

/-- Sending all groups makes the calls of each, one group after another, and gives the refusals
among them. -/
theorem sendGroups_spec (hsink : sink.NeverCrashes) (resource : String)
    (groups : List (List String)) (state : σ) (trace : List Call) :
    ∃ last calls,
      sendGroups sink.traced resource groups (state, trace) =
        (some (Call.refusals calls.flatten), last, trace ++ calls.flatten) ∧
      List.Forall₂ (GroupCalls resource) groups calls ∧ sink.Answers state calls.flatten last := by
  induction groups generalizing state trace with
  | nil =>
    refine ⟨state, [], ?_, .nil, .nil⟩
    rw [List.flatten_nil, List.append_nil]
    rfl
  | cons texts rest ih =>
    obtain ⟨reply, next, calls, hgroup, hcalls, hanswers, hcrashed, hrefusals⟩ :=
      sendGroup_spec hsink resource texts state trace
    obtain ⟨last, later, hgroups, hlater, hafter⟩ := ih next (trace ++ calls)
    refine ⟨last, calls :: later, ?_, .cons hcalls hlater, ?_⟩
    · rw [List.flatten_cons, Call.refusals_append, hrefusals, ← List.append_assoc]
      -- A refusal of this group comes before those of the groups that are sent after it.
      cases reply with
      | accepted =>
        simp only [sendGroups, hgroup, hgroups]
        rfl
      | refused refusal =>
        simp only [sendGroups, hgroup, hgroups]
        rfl
      | crashed => exact absurd rfl hcrashed
    · rw [List.flatten_cons]
      exact hanswers.append hafter

/-- How the sending of so many violations ends, by the refusals that were met. -/
def ending (refusals : List Refusal) (count : Nat) : Delivery :=
  ((Refusals.ofList? refusals).map Delivery.refused).getD (.reported count)

theorem ending_eq_reported_iff {refusals : List Refusal} {count reported : Nat} :
    ending refusals count = .reported reported ↔ refusals = [] ∧ reported = count := by
  cases refusals with
  | nil =>
    rw [ending, Refusals.ofList?, Option.map_none, Option.getD_none, Delivery.reported.injEq]
    exact ⟨fun h => ⟨rfl, h.symm⟩, fun h => h.2.symm⟩
  | cons refusal others => exact ⟨nofun, fun h => absurd h.1 (List.cons_ne_nil _ _)⟩

theorem ending_eq_refused_iff {list : List Refusal} {count : Nat} {refusals : Refusals} :
    ending list count = .refused refusals ↔ refusals.toList = list := by
  cases list with
  | nil => exact ⟨nofun, fun h => absurd h (List.cons_ne_nil _ _)⟩
  | cons refusal others =>
    rw [ending, Refusals.ofList?, Option.map_some, Option.getD_some, Delivery.refused.injEq]
    exact ⟨fun h => h ▸ rfl, fun h => (Refusals.ext_toList h).symm⟩

/-- Sending violations ends by the refusals that their groups met. -/
theorem sendViolations_eq {sink : Sink σ} {dialect : Dialect} {violations : List Violation}
    {state last : σ} {refusals : List Refusal}
    (h : sendGroups sink resource (dialect.sentences violations) state = (some refusals, last)) :
    sendViolations dialect sink resource violations state =
      (ending refusals violations.length, last) := by
  simp only [sendViolations, h]
  cases refusals with
  | nil => rw [dialect.length_flatten_sentences]; rfl
  | cons refusal others => rfl

/-- Sending violations makes the calls of each group, and ends by the refusals among them. -/
theorem sendViolations_spec (hsink : sink.NeverCrashes) (dialect : Dialect) (resource : String)
    (violations : List Violation) (state : σ) :
    ∃ last groups,
      sendViolations dialect sink.traced resource violations (state, []) =
        (ending (Call.refusals groups.flatten) violations.length, last, groups.flatten) ∧
      List.Forall₂ (GroupCalls resource) (dialect.sentences violations) groups ∧
      sink.Answers state groups.flatten last := by
  obtain ⟨last, groups, hgroups, hcalls, hanswers⟩ :=
    sendGroups_spec hsink resource (dialect.sentences violations) state []
  exact ⟨last, groups, sendViolations_eq hgroups, hcalls, hanswers⟩

/-- What the sending of violations amounts to: how it ended, the state in which it left the sink,
and the calls that it made, group by group. -/
structure Account (dialect : Dialect) (sink : Sink σ) (resource : String)
    (violations : List Violation) (state : σ) (delivery : Delivery) (last : σ)
    (calls : List (List Call)) : Prop where
  /-- So it ended, and so it left the sink. -/
  result : sendViolations dialect sink resource violations state = (delivery, last)
  /-- These calls were made on the sink, and no others. -/
  traced : sendViolations dialect sink.traced resource violations (state, []) =
    (delivery, last, calls.flatten)
  /-- The calls of each group send what the dialect says about it, up to the first refusal. -/
  groups : List.Forall₂ (GroupCalls resource) (dialect.sentences violations) calls
  /-- Each call was made on the state that all calls before it left. -/
  answers : sink.Answers state calls.flatten last
  /-- The sending reports a count exactly if no call was refused, and that of all violations. -/
  reported_iff : ∀ count, delivery = .reported count ↔
    Call.refusals calls.flatten = [] ∧ count = violations.length
  /-- In that case every violation was sent once, with its own text. -/
  each_once : Call.refusals calls.flatten = [] →
    calls.flatten.Perm ((List.range violations.length).map fun position =>
      (⟨resource, none, dialect.sentenceAt violations position⟩, .accepted))
  /-- The sending ends in refusals exactly if there were some, and these are all of them. -/
  refused_iff : ∀ refusals, delivery = .refused refusals ↔
    refusals.toList = Call.refusals calls.flatten
  /-- No group met more than one refusal. -/
  length_refusals_le_one : ∀ group ∈ calls, (Call.refusals group).length ≤ 1
  /-- Every call was accepted or is one of the refusals. -/
  length_eq : calls.flatten.length =
    (Call.accepted calls.flatten).length + (Call.refusals calls.flatten).length
  /-- What was accepted stays in the sink, also where a refusal came before or after it. -/
  kept : ∀ view, sink.Keeps view → view last = view state ++ Call.accepted calls.flatten

/-- Without a refusal the calls are one for each violation. -/
theorem flatten_perm_of_refusals_eq_nil {dialect : Dialect} {violations : List Violation}
    {calls : List (List Call)}
    (hcalls : List.Forall₂ (GroupCalls resource) (dialect.sentences violations) calls)
    (hnone : Call.refusals calls.flatten = []) :
    calls.flatten.Perm ((List.range violations.length).map fun position =>
      (⟨resource, none, dialect.sentenceAt violations position⟩, .accepted)) := by
  rw [GroupCalls.flatten_eq_map hcalls hnone]
  have h := (dialect.flatten_sentences violations).map fun text =>
    ((⟨resource, none, text⟩, .accepted) : Call)
  rwa [List.map_map] at h

/-- Whatever the sending of violations came to, with all its calls, it has an account. -/
theorem exists_account_of_traced {dialect : Dialect} {violations : List Violation}
    {state last : σ} {delivery : Delivery} {calls : List Call} (hsink : sink.NeverCrashes)
    (htraced : sendViolations dialect sink.traced resource violations (state, []) =
      (delivery, last, calls)) :
    ∃ groups, calls = groups.flatten ∧
      Account dialect sink resource violations state delivery last groups := by
  obtain ⟨_, groups, hspec, hcalls, hanswers⟩ :=
    sendViolations_spec hsink dialect resource violations state
  rw [hspec] at htraced
  obtain ⟨rfl, hlast⟩ := Prod.mk.inj htraced
  obtain ⟨rfl, rfl⟩ := Prod.mk.inj hlast
  refine ⟨groups, rfl, ?_⟩
  -- How it ends is decided by the list of refusals alone.
  exact {
    result := sendViolations_of_traced hspec
    traced := hspec
    groups := hcalls
    answers := hanswers
    reported_iff := fun _ => ending_eq_reported_iff
    each_once := flatten_perm_of_refusals_eq_nil hcalls
    refused_iff := fun _ => ending_eq_refused_iff
    length_refusals_le_one := GroupCalls.forall_length_refusals_le_one hcalls
    length_eq := Call.length_eq_add (hanswers.ne_crashed hsink)
    kept := fun _ hview => hanswers.view_eq hview }

/-- Sending violations to a sink that never crashes has an account. -/
theorem exists_account {sink : Sink σ} (hsink : sink.NeverCrashes) (dialect : Dialect)
    (resource : String) (violations : List Violation) (state : σ) :
    ∃ delivery last calls, Account dialect sink resource violations state delivery last calls := by
  rcases htraced : sendViolations dialect sink.traced resource violations (state, []) with
    ⟨delivery, last, calls⟩
  obtain ⟨groups, -, haccount⟩ := exists_account_of_traced hsink htraced
  exact ⟨delivery, last, groups, haccount⟩

/-- A sink that accepts and refuses by turns. -/
def alternating : Sink Bool := fun refuses _ =>
  (if refuses then .refused .closed else .accepted, !refuses)

/-- The second text of the first group is refused, so the third is not sent; the other group is
sent all the same. -/
theorem exists_account_alternating :
    alternating.NeverCrashes ∧
      ∃ delivery last calls, Account .babel alternating ".babelrc"
        [.new ⟨"/a"⟩ .type "is 1", .new ⟨"/b"⟩ .type "is 2", .new ⟨"/a"⟩ .type "is 3",
          .new ⟨"/a"⟩ .type "is 4"]
        false delivery last calls ∧
      delivery = .refused (.single .closed) ∧
      calls.flatten = [(⟨".babelrc", none, "'a' is 1."⟩, .accepted),
        (⟨".babelrc", none, "'a' is 3."⟩, .refused .closed),
        (⟨".babelrc", none, "'b' is 2."⟩, .accepted)] := by
  have hsink : alternating.NeverCrashes := by
    intro refuses diagnostic
    cases refuses <;> exact nofun
  obtain ⟨delivery, last, calls, h⟩ := exists_account hsink .babel ".babelrc"
    [.new ⟨"/a"⟩ .type "is 1", .new ⟨"/b"⟩ .type "is 2", .new ⟨"/a"⟩ .type "is 3",
      .new ⟨"/a"⟩ .type "is 4"] false
  have hdelivery := congrArg Prod.fst h.traced
  have hcalls := congrArg (fun result => result.2.2) h.traced
  refine ⟨hsink, delivery, last, calls, h, hdelivery.symm.trans ?_, hcalls.symm.trans ?_⟩
  · decide +kernel
  · decide +kernel

end ConfigDiagnostics.Emission
