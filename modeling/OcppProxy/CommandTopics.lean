import OcppProxy.Publisher

/-!
# Command topics

A topic is its levels, joined by slashes. The parser reads back exactly the command topics, and no
topic the publisher builds is one of them, whatever charge point id or action it is built from.
-/

namespace OcppProxy

def hasSlash (name : String) : Bool := name.toList.contains '/'

/-- Single-level wildcard matching on the levels of a filter and of a topic. -/
def levelsMatch : List String → List String → Bool
  | [], [] => true
  | level :: filter, name :: topic => (level == "+" || level == name) && levelsMatch filter topic
  | _, _ => false

/-- Whether a broker sends what is published on the topic to a subscriber of the filter. -/
def filterMatches (filter topic : String) : Bool :=
  levelsMatch (topicSegments filter) (topicSegments topic)

inductive PublisherTopic : String → Prop
  | message (chargePointId action : String) (direction : Direction) :
    PublisherTopic (messageTopic chargePointId (directionStr direction) action)
  | status (chargePointId : String) : PublisherTopic (statusTopic chargePointId)
  | state (chargePointId : String) : PublisherTopic (chargePointStateTopic chargePointId)
  | availability (chargePointId : String) : PublisherTopic (availabilityTopic chargePointId)
  | result (chargePointId : String) : PublisherTopic (commandResultTopic chargePointId)

section
variable {a b topic filter id action : String} {kind : CommandTopic} {levels : List String}

/-! ## Levels -/

theorem topicSegments_append (a b : String) :
    topicSegments (a ++ "/" ++ b) = topicSegments a ++ topicSegments b := by
  have hchars : (a ++ "/" ++ b).toList = a.toList ++ '/' :: b.toList := by simp
  rw [topicSegments, hchars, List.splitOn_append_cons_self, List.map_append]
  rfl

theorem topicSegments_ne_nil (a : String) : topicSegments a ≠ [] := by
  simp [topicSegments, List.splitOn_ne_nil]

/-- A name without slashes is one level. -/
theorem topicSegments_eq_singleton : topicSegments a = [a] ↔ hasSlash a = false := by
  constructor
  · intro h
    by_contra hslash
    have hmem : '/' ∈ a.toList := by simpa [hasSlash] using hslash
    obtain ⟨before, after, hchars⟩ := List.append_of_mem hmem
    have ha : a = String.ofList before ++ "/" ++ String.ofList after :=
      String.toList_inj.mp (by simp [hchars])
    have hlength := congrArg List.length h
    rw [ha, topicSegments_append, List.length_append, List.length_singleton] at hlength
    have hbefore := List.length_pos_iff.mpr (topicSegments_ne_nil (String.ofList before))
    have hafter := List.length_pos_iff.mpr (topicSegments_ne_nil (String.ofList after))
    omega
  · intro h
    have hchars : '/' ∉ a.toList := by simpa [hasSlash] using h
    rw [topicSegments, List.splitOn_eq_singleton hchars, List.map_singleton, String.ofList_toList]

theorem not_mem_of_mem_splitOn {chars part : List Char} {c : Char} (h : part ∈ chars.splitOn c) :
    c ∉ part := by
  induction chars generalizing part with
  | nil =>
    have hpart : part = [] := by simpa using h
    simp [hpart]
  | cons x chars ih =>
    rw [List.splitOn_cons_eq_if_modifyHead] at h
    split at h
    next =>
      obtain rfl | hrest := List.mem_cons.mp h
      · simp
      · exact ih hrest
    next hx =>
      have hne : c ≠ x := fun heq => hx (by simp [heq])
      cases hsplit : chars.splitOn c with
      | nil => exact absurd hsplit (List.splitOn_ne_nil c chars)
      | cons first rest =>
        rw [hsplit] at h ih
        obtain rfl | hrest := List.mem_cons.mp h
        · have hfirst : c ∉ first := ih List.mem_cons_self
          exact List.not_mem_cons_of_ne_of_not_mem hne hfirst
        · exact ih (List.mem_cons_of_mem first hrest)

/-- No level has a slash. -/
theorem hasSlash_of_mem_topicSegments (h : id ∈ topicSegments a) : hasSlash id = false := by
  obtain ⟨part, hpart, rfl⟩ := List.mem_map.mp h
  simpa [hasSlash] using not_mem_of_mem_splitOn hpart

/-- The levels of a topic determine it. -/
theorem topicSegments_injective (h : topicSegments a = topicSegments b) : a = b := by
  have hinjective : Function.Injective (List.map String.ofList) :=
    List.map_injective_iff.mpr fun _ _ => String.ofList_inj.mp
  have hjoined := congrArg (['/'].intercalate ·) (hinjective h)
  simp only [List.intercalate_splitOn] at hjoined
  exact String.toList_inj.mp hjoined

/-- The levels of a topic below a charge point. -/
theorem topicSegments_below
    (h : topic.toList = "ocpp/".toList ++ (id.toList ++ ("/".toList ++ a.toList))) :
    topicSegments topic = "ocpp" :: (topicSegments id ++ topicSegments a) := by
  have htopic : topic = "ocpp" ++ "/" ++ (id ++ "/" ++ a) := by
    apply String.toList_inj.mp
    rw [h]
    simp
  rw [htopic, topicSegments_append, topicSegments_append]
  rfl

theorem topicSegments_commandTopic :
    topicSegments (commandTopic id) = "ocpp" :: (topicSegments id ++ ["command"]) :=
  topicSegments_below (a := "command") (by simp [commandTopic, toString])

theorem topicSegments_currentLimitTopic :
    topicSegments (currentLimitTopic id) =
      "ocpp" :: (topicSegments id ++ ["command", "current_limit"]) :=
  topicSegments_below (a := "command/current_limit") (by simp [currentLimitTopic, toString])

theorem topicSegments_commandResultTopic :
    topicSegments (commandResultTopic id) =
      "ocpp" :: (topicSegments id ++ ["command", "result"]) :=
  topicSegments_below (a := "command/result") (by simp [commandResultTopic, toString])

theorem topicSegments_statusTopic :
    topicSegments (statusTopic id) = "ocpp" :: (topicSegments id ++ ["status"]) :=
  topicSegments_below (a := "status") (by simp [statusTopic, toString])

theorem topicSegments_chargePointStateTopic :
    topicSegments (chargePointStateTopic id) = "ocpp" :: (topicSegments id ++ ["state"]) :=
  topicSegments_below (a := "state") (by simp [chargePointStateTopic, toString])

theorem topicSegments_availabilityTopic :
    topicSegments (availabilityTopic id) = "ocpp" :: (topicSegments id ++ ["availability"]) :=
  topicSegments_below (a := "availability") (by simp [availabilityTopic, toString])

theorem topicSegments_messageTopic {direction : Direction} :
    topicSegments (messageTopic id (directionStr direction) action) =
      "ocpp" :: (topicSegments id ++ directionStr direction :: topicSegments action) := by
  have hdirection : topicSegments (directionStr direction) = [directionStr direction] := by
    cases direction <;> decide
  have hbelow : topicSegments (messageTopic id (directionStr direction) action) =
      "ocpp" :: (topicSegments id ++
        topicSegments (directionStr direction ++ "/" ++ action)) :=
    topicSegments_below (by simp [messageTopic, toString])
  rw [hbelow, topicSegments_append, hdirection]
  rfl

/-! ## Recognition -/

/-- What the parser takes for a command topic. -/
theorem parseCommandTopic_eq_some :
    parseCommandTopic topic = some (id, kind) ↔
      id ≠ "" ∧ (kind = .command ∧ topicSegments topic = ["ocpp", id, "command"] ∨
        kind = .currentLimit ∧ topicSegments topic = ["ocpp", id, "command", "current_limit"]) := by
  constructor
  · intro h
    unfold parseCommandTopic at h
    split at h
    next chargePointId hsegments =>
      split at h
      next => cases h
      next hne =>
        cases h
        exact ⟨hne, .inl ⟨rfl, hsegments⟩⟩
    next chargePointId hsegments =>
      split at h
      next => cases h
      next hne =>
        cases h
        exact ⟨hne, .inr ⟨rfl, hsegments⟩⟩
    next => cases h
  · rintro ⟨hne, ⟨rfl, hsegments⟩ | ⟨rfl, hsegments⟩⟩ <;>
      simp [parseCommandTopic, hsegments, hne]

/-- A topic with an id for its second level is the one built from that id. -/
theorem topicSegments_eq_iff (hbuilt : topicSegments a = "ocpp" :: (topicSegments id ++ levels)) :
    topicSegments topic = "ocpp" :: id :: levels ↔ hasSlash id = false ∧ topic = a := by
  constructor
  · intro h
    have hslash : hasSlash id = false := by
      apply hasSlash_of_mem_topicSegments (a := topic)
      rw [h]
      exact List.mem_cons_of_mem _ List.mem_cons_self
    rw [topicSegments_eq_singleton.mpr hslash] at hbuilt
    exact ⟨hslash, topicSegments_injective (h.trans hbuilt.symm)⟩
  · rintro ⟨hslash, rfl⟩
    rw [hbuilt, topicSegments_eq_singleton.mpr hslash]
    rfl

theorem parseCommandTopic_eq_command :
    parseCommandTopic topic = some (id, .command) ↔
      id ≠ "" ∧ hasSlash id = false ∧ topic = commandTopic id := by
  rw [parseCommandTopic_eq_some, ← topicSegments_eq_iff topicSegments_commandTopic]
  simp

theorem parseCommandTopic_eq_currentLimit :
    parseCommandTopic topic = some (id, .currentLimit) ↔
      id ≠ "" ∧ hasSlash id = false ∧ topic = currentLimitTopic id := by
  rw [parseCommandTopic_eq_some, ← topicSegments_eq_iff topicSegments_currentLimitTopic]
  simp

/-! ## Separation -/

theorem filterMatches_command :
    filterMatches "ocpp/+/command" topic = true ↔
      ∃ name, topicSegments topic = ["ocpp", name, "command"] := by
  have hfilter : topicSegments "ocpp/+/command" = ["ocpp", "+", "command"] := by decide
  rw [filterMatches, hfilter]
  constructor
  · intro h
    match hsegments : topicSegments topic with
    | [] | [_] | [_, _] | _ :: _ :: _ :: _ :: _ => simp [hsegments, levelsMatch] at h
    | [first, name, last] =>
      simp only [hsegments, levelsMatch] at h
      simp at h
      exact ⟨name, by rw [h.1, h.2]⟩
  · rintro ⟨name, hsegments⟩
    simp [hsegments, levelsMatch]

theorem filterMatches_currentLimit :
    filterMatches "ocpp/+/command/current_limit" topic = true ↔
      ∃ name, topicSegments topic = ["ocpp", name, "command", "current_limit"] := by
  have hfilter : topicSegments "ocpp/+/command/current_limit" =
      ["ocpp", "+", "command", "current_limit"] := by
    decide
  rw [filterMatches, hfilter]
  constructor
  · intro h
    match hsegments : topicSegments topic with
    | [] | [_] | [_, _] | [_, _, _] | _ :: _ :: _ :: _ :: _ :: _ =>
      simp [hsegments, levelsMatch] at h
    | [first, name, third, last] =>
      simp only [hsegments, levelsMatch] at h
      simp at h
      exact ⟨name, by rw [h.1, h.2.1, h.2.2]⟩
  · rintro ⟨name, hsegments⟩
    simp [hsegments, levelsMatch]

/-- The levels of a topic no subscription covers and the parser refuses. -/
def Foreign (levels : List String) : Prop :=
  ∀ name, levels ≠ ["ocpp", name, "command"] ∧
    levels ≠ ["ocpp", name, "command", "current_limit"]

theorem Foreign.of_last (hbuilt : topicSegments topic = "ocpp" :: (topicSegments id ++ levels))
    (hlast : levels.getLast? = some a) (hcommand : a ≠ "command")
    (hlimit : a ≠ "current_limit") : Foreign (topicSegments topic) := by
  intro name
  have htopic : (topicSegments topic).getLast? = some a := by
    simp [hbuilt, List.getLast?_cons, hlast]
  constructor <;> intro h <;> rw [h] at htopic
  · exact hcommand (Option.some.inj htopic).symm
  · exact hlimit (Option.some.inj htopic).symm

/-- A message's topic has at least four levels, and its third cannot be `command`. -/
theorem Foreign.of_direction (hbuilt : topicSegments topic =
      "ocpp" :: (topicSegments id ++ (b :: topicSegments action))) (hb : b ≠ "command") :
    Foreign (topicSegments topic) := by
  intro name
  have hid := List.length_pos_iff.mpr (topicSegments_ne_nil id)
  have haction := List.length_pos_iff.mpr (topicSegments_ne_nil action)
  rw [hbuilt]
  constructor <;> intro h
  · have hlength := congrArg List.length h
    simp at hlength
    omega
  · have hlength := congrArg List.length h
    simp at hlength
    have hone : (topicSegments id).length = 1 := by omega
    obtain ⟨first, hfirst⟩ := List.length_eq_one_iff.mp hone
    rw [hfirst] at h
    simp_all

/-- No topic the publisher builds is one the proxy listens to. -/
theorem PublisherTopic.foreign (h : PublisherTopic topic) : Foreign (topicSegments topic) := by
  cases h with
  | message chargePointId action direction =>
    apply Foreign.of_direction topicSegments_messageTopic
    cases direction <;> decide
  | status => exact Foreign.of_last topicSegments_statusTopic rfl (by decide) (by decide)
  | state => exact Foreign.of_last topicSegments_chargePointStateTopic rfl (by decide) (by decide)
  | availability => exact Foreign.of_last topicSegments_availabilityTopic rfl (by decide) (by decide)
  | result => exact Foreign.of_last topicSegments_commandResultTopic rfl (by decide) (by decide)

theorem Foreign.not_matches (h : Foreign (topicSegments topic)) :
    ∀ filter ∈ commandSubscriptions, filterMatches filter topic = false := by
  intro filter hfilter
  rw [Bool.eq_false_iff]
  intro hmatch
  obtain rfl | rfl : filter = "ocpp/+/command" ∨ filter = "ocpp/+/command/current_limit" := by
    simpa [commandSubscriptions] using hfilter
  · obtain ⟨name, hsegments⟩ := filterMatches_command.mp hmatch
    exact (h name).1 hsegments
  · obtain ⟨name, hsegments⟩ := filterMatches_currentLimit.mp hmatch
    exact (h name).2 hsegments

theorem Foreign.not_parsed (h : Foreign (topicSegments topic)) : parseCommandTopic topic = none := by
  by_contra hparsed
  obtain ⟨⟨name, kind⟩, hsome⟩ := Option.ne_none_iff_exists'.mp hparsed
  obtain ⟨-, ⟨-, hsegments⟩ | ⟨-, hsegments⟩⟩ := parseCommandTopic_eq_some.mp hsome
  · exact (h name).1 hsegments
  · exact (h name).2 hsegments

/-- The parser reads back the command topics and nothing else, and what the publisher builds is
never one of them nor covered by a subscription. -/
theorem commandTopics_exact :
    (∀ topic id, parseCommandTopic topic = some (id, .command) ↔
      id ≠ "" ∧ hasSlash id = false ∧ topic = commandTopic id) ∧
    (∀ topic id, parseCommandTopic topic = some (id, .currentLimit) ↔
      id ≠ "" ∧ hasSlash id = false ∧ topic = currentLimitTopic id) ∧
    ∀ topic, PublisherTopic topic → parseCommandTopic topic = none ∧
      ∀ filter ∈ commandSubscriptions, filterMatches filter topic = false := by
  refine ⟨fun topic id => parseCommandTopic_eq_command,
    fun topic id => parseCommandTopic_eq_currentLimit, ?_⟩
  intro topic h
  exact ⟨h.foreign.not_parsed, h.foreign.not_matches⟩

end

end OcppProxy
