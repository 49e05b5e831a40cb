import OpenctiLookup.Wazuh.Events

/-! A decoder for the datagrams of the integration, which serves as their specification: a colon
ends the location unless a bar stands in front of it. The parser of analysisd itself is not part
of the repository. -/
namespace OpenctiLookup
open Python JsonText Wazuh

/-- The location at the start of a text, and what follows its colon. -/
def readLocationFrom : Bool → Str → Option (Str × Str)
  | _, [] => none
  | true, c :: rest => (readLocationFrom false rest).map fun read => (c :: read.1, read.2)
  | false, c :: rest =>
      if c = ':' then some ([], rest)
      else if c = '|' then readLocationFrom true rest
      else (readLocationFrom false rest).map fun read => (c :: read.1, read.2)

def readLocation (text : Str) : Option (Str × Str) := readLocationFrom false text

def readDatagram (floats : Floats) (depth : ℕ) (datagram : Str) : Option (Str × Json) :=
  if startsWith "1:" datagram then do
    let (location, text) ← readLocation (datagram.drop 2)
    let event ← (loads floats depth text).toOption
    pure (location, event)
  else none

/-- Where an alert is shown to come from. -/
def sourceOf (rt : Runtime) (agent : Json) : Py Str :=
  if !agent.truthy then .ok integrationName
  else do
    if Api.text? (← agent.get "id") = some "000".toList then pure integrationName
    else
      let location ← locationOf rt agent
      pure (location ++ ("->" ++ integrationName))

section Locations

variable {rest : Str}

theorem readLocation_plain {plain : Str} (h : ∀ c ∈ plain, c ≠ ':' ∧ c ≠ '|') :
    readLocation (plain ++ rest) =
      (readLocation rest).map fun read => (plain ++ read.1, read.2) := by
  induction plain with
  | nil => simp
  | cons c plain ih =>
      rw [List.forall_mem_cons] at h
      rw [readLocation, List.cons_append, readLocationFrom, if_neg h.1.1, if_neg h.1.2,
        ← readLocation, ih h.2, Option.map_map]
      rfl

theorem escapeLocation_cons (c : Char) (location : Str) :
    escapeLocation (c :: location) =
      (if c = '|' then ['|', '|'] else if c = ':' then ['|', ':'] else [c]) ++
        escapeLocation location := by
  unfold escapeLocation replaceChar
  rw [List.flatMap_cons, List.flatMap_append]
  congr 1
  by_cases hbar : c = '|'
  · subst hbar
    rfl
  · rw [if_neg hbar, if_neg hbar, List.flatMap_singleton]
    rfl

theorem readLocation_escapeLocation (location rest : Str) :
    readLocation (escapeLocation location ++ rest) =
      (readLocation rest).map fun read => (location ++ read.1, read.2) := by
  induction location with
  | nil => simp [escapeLocation, replaceChar]
  | cons c location ih =>
      rw [escapeLocation_cons, List.append_assoc]
      have hmap : ((readLocation rest).map fun read => (location ++ read.1, read.2)).map
          (fun read => (c :: read.1, read.2)) =
            (readLocation rest).map fun read => (c :: location ++ read.1, read.2) := by
        rw [Option.map_map]
        rfl
      by_cases hbar : c = '|'
      · subst hbar
        rw [if_pos rfl, ← hmap, ← ih]
        rfl
      · rw [if_neg hbar]
        by_cases hcolon : c = ':'
        · subst hcolon
          rw [if_pos rfl, ← hmap, ← ih]
          rfl
        · rw [if_neg hcolon, ← hmap, ← ih, List.singleton_append, readLocation, readLocationFrom,
            if_neg hcolon, if_neg hbar]
          rfl

end Locations

section Datagrams

variable {rt : Runtime} {floats : Floats} {depth : ℕ} {event agent : Json} {datagram : Str}

/-- A datagram is read as the source and the event it was written for, whatever the texts of
the agent and of the event. -/
theorem readDatagram_eventPayload (hevent : Writable floats depth event)
    (h : eventPayload rt floats event agent = .ok datagram) :
    ∃ source, sourceOf rt agent = .ok source ∧
      readDatagram floats depth datagram = some (source, event) := by
  have hname : ∀ c ∈ integrationName, c ≠ ':' ∧ c ≠ '|' := by decide
  have harrow : ∀ c ∈ ("->" : Str) ++ integrationName, c ≠ ':' ∧ c ≠ '|' := by decide
  have hcolon : ∀ text : Str, readLocation (':' :: text) = some ([], text) := fun _ => rfl
  have hread : ∀ location text : Str, readLocation text = some (location, dumps floats event) →
      readDatagram floats depth ('1' :: ':' :: text) = some (location, event) := by
    intro location text htext
    have hdrop : ('1' :: ':' :: text).drop 2 = text := rfl
    have hstarts : startsWith "1:" ('1' :: ':' :: text) = true := rfl
    rw [readDatagram, if_pos hstarts, hdrop, htext, Option.bind_eq_bind, Option.bind_some]
    dsimp only
    rw [loads_dumps hevent]
    rfl
  have hhere : readDatagram floats depth
      ("1:" ++ integrationName ++ ":" ++ dumps floats event) = some (integrationName, event) := by
    refine hread _ (integrationName ++ (':' :: dumps floats event)) ?_
    rw [readLocation_plain hname, hcolon]
    rfl
  unfold eventPayload at h
  unfold sourceOf
  by_cases htruthy : agent.truthy = true
  · rw [htruthy] at h ⊢
    rw [Bool.not_true, if_neg Bool.false_ne_true] at h ⊢
    obtain ⟨id, hid, h⟩ := bind_eq_ok_iff.mp h
    rw [hid, ok_bind]
    split at h
    · next hlocal =>
        cases h
        exact ⟨integrationName, if_pos hlocal, hhere⟩
    · next hremote =>
        obtain ⟨location, hlocation, h⟩ := bind_eq_ok_iff.mp h
        cases h
        refine ⟨location ++ ("->" ++ integrationName), ?_, ?_⟩
        · rw [if_neg hremote, hlocation]
          rfl
        · have hshape : ("1:" ++ escapeLocation location ++ "->" ++ integrationName ++ ":" ++
              dumps floats event : Str) = '1' :: ':' :: (escapeLocation location ++
                ((("->" : Str) ++ integrationName) ++ ':' :: dumps floats event)) := by
            simp
          rw [hshape]
          refine hread _ _ ?_
          rw [readLocation_escapeLocation, readLocation_plain harrow, hcolon]
          simp
  · rw [(Bool.not_eq_true _).mp htruthy] at h ⊢
    cases h
    exact ⟨integrationName, rfl, hhere⟩

/-- Two messages with one datagram are one event from one source: no name of an agent makes an
event pass for another. -/
theorem eventPayload_unambiguous {other otherAgent : Json} (hevent : Writable floats depth event)
    (hother : Writable floats depth other) (h : eventPayload rt floats event agent = .ok datagram)
    (hsame : eventPayload rt floats other otherAgent = .ok datagram) :
    other = event ∧ ∃ source, sourceOf rt agent = .ok source ∧
      sourceOf rt otherAgent = .ok source ∧
        readDatagram floats depth datagram = some (source, event) := by
  obtain ⟨source, hsource, hread⟩ := readDatagram_eventPayload hevent h
  obtain ⟨source', hsource', hread'⟩ := readDatagram_eventPayload hother hsame
  have heq : (source, event) = (source', other) := Option.some.inj (hread.symm.trans hread')
  cases heq
  exact ⟨rfl, source, hsource, hsource', hread⟩

/-- The event of an agent whose name has a colon and the mark of the integration. -/
theorem eventPayload_unambiguous_marked :
    ∃ source, sourceOf (Runtime.ofAscii [])
        (.obj [("id", .str "001"), ("name", .str "a) b->opencti:\x7b")]) = .ok source ∧
      readDatagram halfOnly 1 "1:[001] (a) b->opencti|:\x7b) any->opencti:\x7b\x7d" =
        some (source, .obj []) := by
  have hwritable : Writable halfOnly 1 (.obj []) := ⟨List.nodup_nil, trivial⟩
  have hsent : eventPayload (Runtime.ofAscii []) halfOnly (.obj [])
      (.obj [("id", .str "001"), ("name", .str "a) b->opencti:\x7b")]) =
        .ok "1:[001] (a) b->opencti|:\x7b) any->opencti:\x7b\x7d" := by rfl
  obtain ⟨source, hsource, -, hread⟩ :=
    (eventPayload_unambiguous hwritable hwritable hsent hsent).2
  exact ⟨source, hsource, hread⟩

end Datagrams

end OpenctiLookup
