import ConfigDiagnostics.Proofs.Reachability
import ConfigDiagnostics.Proofs.Script
import ConfigDiagnostics.Proofs.StablePartition
import ConfigDiagnostics.Registry.Table

/-!
# Registering rules

A rule is added under its own topic, and only where there is none yet. So after any calls, by any
holders, a table has for each topic the first rule that was offered for it, and the topics in the
order in which they came. A call that is refused leaves everything as it was, so an event goes to
the same rule after it as before.

## Main definitions

* `RuleTable.Keeps`: what a table has come to when rules were offered to it
* `RegistryAccount`: what a holder can observe after calls, and what one more call comes to

## Main results

* `RuleTable.Keeps.register`: one more rule that is offered
* `keeps_registerAll`: any calls, by any holders
* `registryAccount`: all that can be observed after them
-/

namespace ConfigDiagnostics

namespace Registry

variable {ι : Type} {registry : Registry ι} {rule : Rule ι}

theorem offer_of_mem (h : rule.dialect.topic ∈ registry.topics) :
    registry.offer rule = registry := by
  rw [offer, register, if_pos h]

theorem offer_of_notMem (h : rule.dialect.topic ∉ registry.topics) :
    registry.offer rule = ⟨registry.rules ++ [rule]⟩ := by
  rw [offer, register, if_neg h]

theorem offerAll_concat (registry : Registry ι) (rules : List (Rule ι)) (rule : Rule ι) :
    registry.offerAll (rules ++ [rule]) = (registry.offerAll rules).offer rule := by
  rw [offerAll, List.foldl_append]
  rfl

end Registry

namespace RuleTable

variable {ι : Type} {table : RuleTable ι} {offered : List (Rule ι)} {rule : Rule ι}
  {key topic : String}

/-- A key that is not bound yet is bound at the end. -/
theorem bind_of_notMem {entries : List (String × Rule ι)} (h : key ∉ entries.map Prod.fst) :
    bind key rule entries = entries ++ [(key, rule)] := by
  induction entries with
  | nil => rfl
  | cons entry rest ih =>
    rw [List.map_cons, List.mem_cons, not_or] at h
    rw [bind, if_neg (Ne.symm h.1), ih h.2, List.cons_append]

theorem lookup_singleton :
    List.lookup topic [(key, rule)] = if key = topic then some rule else none := by
  by_cases h : key = topic
  · subst h
    rw [List.lookup_cons_self, if_pos rfl]
  · have hne : (topic == key) = false := beq_eq_false_iff_ne.mpr (Ne.symm h)
    rw [List.lookup_cons, hne, if_neg h, List.lookup_nil]

/-- Rules under their own topics are found by these. -/
theorem find?_map_snd {entries : List (String × Rule ι)}
    (h : ∀ entry ∈ entries, entry.2.dialect.topic = entry.1) (topic : String) :
    ((entries.map Prod.snd).find? fun rule => rule.dialect.topic = topic) =
      entries.lookup topic := by
  induction entries with
  | nil => rfl
  | cons entry rest ih =>
    obtain ⟨hentry, hrest⟩ := List.forall_mem_cons.mp h
    rw [← List.singleton_append, List.map_append, List.map_singleton, List.find?_append, ih hrest,
      List.lookup_append, lookup_singleton, ← hentry, List.find?_singleton]
    simp only [decide_eq_true_eq]

theorem toRegistry_concat (table : RuleTable ι) (key : String) (rule : Rule ι) :
    toRegistry ⟨table.entries ++ [(key, rule)]⟩ = ⟨table.toRegistry.rules ++ [rule]⟩ :=
  congrArg Registry.mk List.map_append

theorem register_of_mem (h : rule.dialect.topic ∈ table.keys) :
    table.register rule = (.error (.duplicateTopic rule.dialect.topic), table) := by
  rw [register, if_pos h]

theorem register_of_notMem (h : rule.dialect.topic ∉ table.keys) :
    table.register rule = (.ok (), ⟨table.entries ++ [(rule.dialect.topic, rule)]⟩) := by
  rw [register, if_neg h, insert, bind_of_notMem h]

/-- What a table has come to when rules were offered to it: each under its own topic, and only the
first of a topic. -/
structure Keeps (table : RuleTable ι) (offered : List (Rule ι)) : Prop where
  /-- No key is bound twice. -/
  nodup_keys : table.keys.Nodup
  /-- Each rule is under its own topic. -/
  topic_eq : ∀ entry ∈ table.entries, entry.2.dialect.topic = entry.1
  /-- The keys are the topics that were offered, in the order in which each was first. -/
  keys_eq : table.keys = (offered.map fun rule => rule.dialect.topic).eraseDups
  /-- Under each topic is the first rule that was offered for it. -/
  get?_eq : ∀ topic, table.get? topic = offered.find? fun rule => rule.dialect.topic = topic
  /-- The rules are those of a registry to which the same rules were offered. -/
  toRegistry_eq : table.toRegistry = ({} : Registry ι).offerAll offered

theorem keeps_nil : Keeps ({} : RuleTable ι) [] where
  nodup_keys := .nil
  topic_eq := nofun
  keys_eq := rfl
  get?_eq _ := rfl
  toRegistry_eq := rfl

namespace Keeps

variable (h : table.Keeps offered)
include h

theorem mem_keys_iff : topic ∈ table.keys ↔ ∃ earlier ∈ offered, earlier.dialect.topic = topic := by
  rw [h.keys_eq, List.mem_eraseDups, List.mem_map]

theorem topics_toRegistry : table.toRegistry.topics = table.keys := by
  rw [Registry.topics, toRegistry, keys, List.map_map]
  exact List.map_congr_left h.topic_eq

theorem get?_toRegistry (topic : String) : table.toRegistry.get? topic = table.get? topic :=
  find?_map_snd h.topic_eq topic

theorem register_toRegistry (rule : Rule ι) : table.toRegistry.register rule =
    (table.register rule).1.map fun _ => (table.register rule).2.toRegistry := by
  by_cases hmem : rule.dialect.topic ∈ table.keys
  · rw [register_of_mem hmem, Registry.register, h.topics_toRegistry, if_pos hmem]
    rfl
  · rw [register_of_notMem hmem, Registry.register, h.topics_toRegistry, if_neg hmem]
    exact congrArg Except.ok (toRegistry_concat ..).symm

/-- A rule is refused just where one for the same topic was offered before. -/
theorem register_eq_error_iff {error : RegistryError} : (table.register rule).1 = .error error ↔
    error = .duplicateTopic rule.dialect.topic ∧
      ∃ earlier ∈ offered, earlier.dialect.topic = rule.dialect.topic := by
  rw [← h.mem_keys_iff]
  by_cases hmem : rule.dialect.topic ∈ table.keys
  · rw [register_of_mem hmem, Except.error.injEq, eq_comm, and_iff_left hmem]
  · rw [register_of_notMem hmem]
    exact iff_of_false nofun fun hboth => hmem hboth.2

/-- A rule for a topic that is taken changes nothing. -/
theorem concat_of_mem (hmem : rule.dialect.topic ∈ table.keys) :
    table.Keeps (offered ++ [rule]) where
  nodup_keys := h.nodup_keys
  topic_eq := h.topic_eq
  keys_eq := by
    have htopics : rule.dialect.topic ∈ offered.map fun rule => rule.dialect.topic := by
      rwa [h.keys_eq, List.mem_eraseDups] at hmem
    rw [h.keys_eq, List.map_append, List.map_singleton, Group.eraseDups_concat, if_pos htopics]
  get?_eq topic := by
    rw [h.get?_eq, List.find?_append]
    by_cases htopic : rule.dialect.topic = topic
    · -- The rule that took the topic is found first.
      obtain ⟨earlier, hearlier, heq⟩ := h.mem_keys_iff.mp (htopic ▸ hmem)
      have hfound : (offered.find? fun rule => rule.dialect.topic = topic).isSome := by
        rw [List.find?_isSome]
        exact ⟨earlier, hearlier, decide_eq_true heq⟩
      rw [Option.or_of_isSome hfound]
    · rw [List.find?_singleton, if_neg (by simpa using htopic), Option.or_none]
  toRegistry_eq := by
    rw [Registry.offerAll_concat, ← h.toRegistry_eq]
    exact (Registry.offer_of_mem (h.topics_toRegistry ▸ hmem)).symm

/-- A rule for a new topic is added at the end. -/
theorem concat_of_notMem (hnot : rule.dialect.topic ∉ table.keys) :
    Keeps ⟨table.entries ++ [(rule.dialect.topic, rule)]⟩ (offered ++ [rule]) where
  nodup_keys := by
    rw [keys, List.map_append, List.map_singleton, ← List.concat_eq_append]
    exact h.nodup_keys.concat hnot
  topic_eq := by
    rw [List.forall_mem_append, List.forall_mem_singleton]
    exact ⟨h.topic_eq, rfl⟩
  keys_eq := by
    have htopics : rule.dialect.topic ∉ offered.map fun rule => rule.dialect.topic := by
      rwa [h.keys_eq, List.mem_eraseDups] at hnot
    rw [List.map_append, List.map_singleton, Group.eraseDups_concat, if_neg htopics, ← h.keys_eq]
    exact List.map_append
  get?_eq topic := by
    have hget : table.entries.lookup topic = offered.find? fun rule => rule.dialect.topic = topic :=
      h.get?_eq topic
    rw [get?, List.lookup_append, hget, List.find?_append, lookup_singleton, List.find?_singleton]
    simp only [decide_eq_true_eq]
  toRegistry_eq := by
    rw [Registry.offerAll_concat, ← h.toRegistry_eq,
      Registry.offer_of_notMem (h.topics_toRegistry ▸ hnot)]
    exact toRegistry_concat ..

/-- One more rule that is offered. -/
theorem register (rule : Rule ι) : (table.register rule).2.Keeps (offered ++ [rule]) := by
  by_cases hmem : rule.dialect.topic ∈ table.keys
  · rw [register_of_mem hmem]
    exact h.concat_of_mem hmem
  · rw [register_of_notMem hmem]
    exact h.concat_of_notMem hmem

end Keeps

end RuleTable

variable {ι κ α : Type} [DecidableEq α] {refersTo : κ → α}

section

variable {tables : α → RuleTable ι} {holder : κ} {offered : List (Rule ι)} {rule : Rule ι}

theorem registerAt_fst : (registerAt refersTo tables holder rule).1 =
    ((tables (refersTo holder)).register rule).1 := rfl

theorem registerAt_snd : (registerAt refersTo tables holder rule).2 =
    setState tables (refersTo holder) ((tables (refersTo holder)).register rule).2 := rfl

/-- A call that is refused leaves all tables as they were. -/
theorem registerAt_snd_of_mem (h : rule.dialect.topic ∈ (tables (refersTo holder)).keys) :
    (registerAt refersTo tables holder rule).2 = tables := by
  rw [registerAt_snd, RuleTable.register_of_mem h]
  exact setState_eq_self tables (refersTo holder)

variable {calls : List (κ × Rule ι)} {call : κ × Rule ι}

theorem registerAll_concat : registerAll refersTo (calls ++ [call]) =
    (registerAt refersTo (registerAll refersTo calls) call.1 call.2).2 := by
  rw [registerAll, List.foldl_append]
  rfl

theorem offeredWith_concat_of_eq (h : refersTo call.1 = refersTo holder) :
    offeredWith refersTo holder (calls ++ [call]) =
      offeredWith refersTo holder calls ++ [call.2] := by
  simp [offeredWith, h]

theorem offeredWith_concat_of_ne (h : refersTo call.1 ≠ refersTo holder) :
    offeredWith refersTo holder (calls ++ [call]) = offeredWith refersTo holder calls := by
  simp [offeredWith, h]

/-- After any calls, by any holders, a table has come to what the calls by its own holders make of
it. -/
theorem keeps_registerAll (refersTo : κ → α) (calls : List (κ × Rule ι)) (holder : κ) :
    (registerAll refersTo calls (refersTo holder)).Keeps (offeredWith refersTo holder calls) := by
  -- One call at a time, from the end, as it is the last call that meets the rules of the others.
  induction calls using List.reverseRecOn with
  | nil => exact RuleTable.keeps_nil
  | append_singleton calls call ih =>
    rw [registerAll_concat, registerAt_snd]
    by_cases hsame : refersTo call.1 = refersTo holder
    · rw [offeredWith_concat_of_eq hsame, hsame, setState_self]
      exact ih.register call.2
    · rw [offeredWith_concat_of_ne hsame, setState_of_ne _ _ (Ne.symm hsame)]
      exact ih

end

variable [DecidableEq ι]

/-- What a holder can observe of its table when the rules `offered` were offered to it, and what one
more call by the holder comes to. -/
structure RegistryAccount (refersTo : κ → α) (tables : α → RuleTable ι) (holder : κ)
    (offered : List (Rule ι)) : Prop where
  /-- Each rule is under its own topic, and only the first of a topic, in the order in which the
  topics came. -/
  keeps : (tables (refersTo holder)).Keeps offered
  /-- There are as many rules as topics. -/
  size_eq : (tables (refersTo holder)).size =
    (offered.map fun rule => rule.dialect.topic).eraseDups.length
  /-- The registry that the table is kept for has the same topics. -/
  topics_eq : (tables (refersTo holder)).toRegistry.topics = (tables (refersTo holder)).keys
  /-- It has the same rule for each topic. -/
  get?_eq : ∀ topic, (tables (refersTo holder)).toRegistry.get? topic =
    (tables (refersTo holder)).get? topic
  /-- It has as many rules. -/
  registry_size_eq : (tables (refersTo holder)).toRegistry.size = (tables (refersTo holder)).size
  /-- One more call comes to the same on it. -/
  register_eq : ∀ rule, (tables (refersTo holder)).toRegistry.register rule =
    (registerAt refersTo tables holder rule).1.map fun _ =>
      ((registerAt refersTo tables holder rule).2 (refersTo holder)).toRegistry
  /-- A call is refused just where a rule for the same topic was offered before. -/
  error_iff : ∀ rule error, (registerAt refersTo tables holder rule).1 = .error error ↔
    error = .duplicateTopic rule.dialect.topic ∧
      ∃ earlier ∈ offered, earlier.dialect.topic = rule.dialect.topic
  /-- A call that is refused leaves all tables as they were. -/
  unchanged : ∀ rule error, (registerAt refersTo tables holder rule).1 = .error error →
    (registerAt refersTo tables holder rule).2 = tables
  /-- An event goes to the first rule that was offered for its topic. -/
  route_eq : ∀ (σ : Type) (sink : Sink σ) (states : ι → σ) announcement event rule finding,
    EventName.Names event announcement.name →
    (offered.find? fun rule => rule.dialect.topic = event.topic) = some rule →
    Finding.ofPayload event.kind announcement.payload = .ok finding →
    (tables (refersTo holder)).toRegistry.route sink announcement states =
      ((rule.send sink finding states).1.outcome, (rule.send sink finding states).2)
  /-- An event for which no rule was offered goes nowhere. -/
  unheard : ∀ (σ : Type) (sink : Sink σ) (states : ι → σ) announcement event,
    EventName.Names event announcement.name →
    (∀ rule ∈ offered, rule.dialect.topic ≠ event.topic) →
    (tables (refersTo holder)).toRegistry.route sink announcement states = (.unheard, states)

/-- After any calls, by any holders, this is what a holder can observe. -/
theorem registryAccount (refersTo : κ → α) (calls : List (κ × Rule ι)) (holder : κ) :
    RegistryAccount refersTo (registerAll refersTo calls) holder
      (offeredWith refersTo holder calls) := by
  -- All can be read off what the table has come to, however it came to it.
  have hkeeps := keeps_registerAll refersTo calls holder
  generalize registerAll refersTo calls = tables at hkeeps ⊢
  generalize offeredWith refersTo holder calls = offered at hkeeps ⊢
  have hget (topic : String) : (tables (refersTo holder)).toRegistry.get? topic =
      offered.find? fun rule => rule.dialect.topic = topic :=
    (hkeeps.get?_toRegistry topic).trans (hkeeps.get?_eq topic)
  refine ⟨hkeeps, ?_, hkeeps.topics_toRegistry, hkeeps.get?_toRegistry, ?_, ?_, ?_, ?_, ?_, ?_⟩
  · rw [← hkeeps.keys_eq]
    exact (List.length_map _).symm
  · exact List.length_map _
  · intro rule
    rw [registerAt_fst, registerAt_snd, setState_self]
    exact hkeeps.register_toRegistry rule
  · intro rule error
    rw [registerAt_fst]
    exact hkeeps.register_eq_error_iff
  · intro rule error herror
    obtain ⟨-, hearlier⟩ := hkeeps.register_eq_error_iff.mp (registerAt_fst.symm.trans herror)
    exact registerAt_snd_of_mem (hkeeps.mem_keys_iff.mpr hearlier)
  · intro σ sink states announcement event rule finding hname hrule hpayload
    exact Registry.route_of_ok hname ((hget event.topic).trans hrule) hpayload
  · intro σ sink states announcement event hname hnone
    refine Registry.route_of_unheard hname ((hget event.topic).trans ?_)
    rw [List.find?_eq_none]
    intro rule hrule
    rw [decide_eq_true_eq]
    exact hnone rule hrule

end ConfigDiagnostics
