import ArRobotCode.Game.Protocol
import ArRobotCode.Game.Undo

namespace ArRobotCode

open Swift Trapping Scratch GridWalk

def palette : List (TypeOfTile × Int) := [(.usedA, 1), (.usedB, 2), (.usedC, 3), (.usedD, 4), (.usedE, 5)]

theorem palette_position : ∀ entry ∈ palette, 1 ≤ entry.2 ∧ entry.2 ≤ 5 ∧ entry.1.rawValue = entry.2 + 3 := by
  decide

theorem palette_of_position {position : Int} (low : 1 ≤ position) (high : position ≤ 5) :
    ∃ entry ∈ palette, entry.2 = position := by
  have listed : position ∈ [(1 : Int), 2, 3, 4, 5] := by
    simp only [List.mem_cons, List.not_mem_nil, or_false]
    omega
  clear low high
  revert position
  decide

namespace EngineAR

/-- The robot stands on a coloured tile, and the colour is that tile's. -/
def Chosen (e : EngineAR) (color : Rgb) : Prop :=
  ∃ entry ∈ palette, e.level.tileAt e.crtPosition.cell = some entry.1.rawValue ∧
    Color.hexToRgb (sliderColour entry.2) = some color

/-- On an unfinished engine the code of a colour selects the tile that has this colour, if any:
    the code of an unknown colour stands for Finish, where no unfinished engine stands. -/
theorem chosen_iff {l : DataLevel} {c : Cell} {e : EngineAR} (sound : e.Sound l c) (active : e.isFinished = false)
    (color : Rgb) : e.Chosen color ↔ e.level.tileAt e.crtPosition.cell = some (codeNumber color + 3) := by
  constructor
  · intro chosen
    obtain ⟨entry, listed, tile, slider⟩ := chosen
    obtain ⟨low, high, type⟩ := palette_position entry listed
    rw [tile, type, (sliderColour_eq_iff low high color).mp slider]
  · intro tile
    obtain ⟨low, high⟩ := codeNumber_bounds color
    have known : codeNumber color ≠ 0 := by
      intro unknown
      have footing := sound.footing active
      rw [unknown, sound.safe.level] at tile
      rw [DataLevel.verdict, tile] at footing
      revert footing
      decide
    obtain ⟨entry, listed, position⟩ := palette_of_position (show 1 ≤ codeNumber color by omega) high
    obtain ⟨entryLow, entryHigh, type⟩ := palette_position entry listed
    refine ⟨entry, listed, ?_, ?_⟩
    · rw [tile, type, position]
    · rw [sliderColour_eq_iff entryLow entryHigh, position]

theorem run_conditional_colour {l : DataLevel} (playable : l.Playable) {c : Cell} {e : EngineAR} (sound : e.Sound l c)
    (active : e.isFinished = false) (m : Motion) (color : Rgb) :
    ∃ e', (performCall (.conditional m (colorToCode color))).run e = .ok () e' ∧
      ((performMotion m).run e = .ok () e' ↔ e.Chosen color) ∧
      (¬ e.Chosen color → e' = { e with status := e.status ++ [m.refusal] }) := by
  obtain ⟨p, footed⟩ := sound.footed active
  have moved := footed.run_performMotion playable m
  have fits : codeNumber color + 3 ≤ intMax := by
    have bounds := codeNumber_bounds color
    unfold intMax
    omega
  have inside := sound.safe.inside active
  rw [← sound.safe.level] at inside
  have ran := run_conditional (by rw [sound.safe.level]; exact playable) active inside m (colorToCode color)
  simp only [tileTypeOf, parseInt_colorToCode, fits, if_true] at ran
  by_cases chosen : e.Chosen color
  · rw [if_pos ((chosen_iff sound active color).mp chosen)] at ran
    exact ⟨_, ran.trans moved, ⟨fun _ => chosen, fun _ => moved⟩, fun other => absurd chosen other⟩
  · rw [if_neg (fun tile => chosen ((chosen_iff sound active color).mpr tile))] at ran
    refine ⟨_, ran, ⟨?_, fun other => absurd other chosen⟩, fun _ => rfl⟩
    intro same
    rw [moved] at same
    have players := GameSession.afterMotion_playerController e m (p.after m.step)
    simp only [EStateM.Result.ok.injEq, true_and] at same
    rw [same] at players
    simp at players

end EngineAR

namespace GameSession

section Firing

variable [Graphemes] [JavaScript]

/-- The message of a conditional block is published, and its subscriber makes the robot move exactly if the colour
    is chosen; otherwise the engine only says so in its status. -/
def FiresOnColour (e : EngineAR) (block : RobotBlock) (crtBlockId : String) (COLOR : JsValue) (color : Rgb) : Prop :=
  ∃ message, block.message crtBlockId COLOR = some message ∧
    (∀ s, (userContentController message).run s =
      .ok () { s with instructionsBehaviourSubject := s.instructionsBehaviourSubject ++ [message] }) ∧
    ∀ s later, s.engineAR = e → s.instructionsBehaviourSubject = message :: later →
      ∃ e' s', consumeInstruction.run s = .ok () s' ∧ s'.engineAR = { e' with status := e'.status ++ [""] } ∧
        s'.instructionsBehaviourSubject = later ∧
        ((EngineAR.performMotion block.motion).run e = .ok () e' ↔ e.Chosen color) ∧
        (¬ e.Chosen color → e' = { e with status := e.status ++ [block.motion.refusal] })

theorem firesOnColour {l : DataLevel} (playable : l.Playable) {c : Cell} {e : EngineAR} (sound : e.Sound l c)
    (active : e.isFinished = false) {block : RobotBlock} (conditional : block.isConditional = true)
    {crtBlockId : String} (word : Word crtBlockId) {COLOR : JsValue} {color : Rgb}
    (converts : Cast.toRgbColorList COLOR = some color) : FiresOnColour e block crtBlockId COLOR color := by
  have reads : block.argument COLOR = some (colorToCode color) := by
    cases block <;> simp only [RobotBlock.isConditional, Bool.false_eq_true] at conditional <;>
      simp only [RobotBlock.argument, converts, Option.map_some]
  have delivers := delivers_of_alone word.nonempty word.spaceless reads word.not_endsPrepended
    (colorToCode_word color).1.not_startsExtending
  have call : block.call (colorToCode color) = .conditional block.motion (colorToCode color) := by
    simp only [RobotBlock.call, conditional, if_true]
  refine ⟨_, ?_, delivers.published, ?_⟩
  · rw [RobotBlock.message_eq, reads]
    rfl
  · intro s later engine queue
    obtain ⟨e₁, s', called, consumed, engine', rest, _⟩ := delivers.performed l c s later playable
      (by rw [engine]; exact sound.safe) (by rw [engine]; exact active) queue
    obtain ⟨e₂, ran, fires, refused⟩ := EngineAR.run_conditional_colour playable sound active block.motion color
    rw [engine, call, ran] at called
    cases called
    exact ⟨_, s', consumed, engine', rest, fires, refused⟩

/-- In an unfinished game the conditional blocks move the robot exactly if it stands on a coloured tile and the colour
    is that tile's. -/
theorem conditional_fires_on_colour {l : DataLevel} (playable : l.Playable) (player : List PlayerCommand)
    (hasStart : ∃ t ∈ l.tiles, t.type = TypeOfTile.start.rawValue) :
    ∃ e₀, EngineAR.init l player = .ok e₀ ∧ ∀ before after e,
      (runAll EngineAR.perform (before ++ .resetLevel :: after)).run e₀ = .ok () e → e.isFinished = false →
        ∀ block : RobotBlock, block.isConditional = true → ∀ entry COLOR color,
          Cast.toRgbColorList COLOR = some color → FiresOnColour e block (printedEntry entry) COLOR color := by
  obtain ⟨c, inside, built, first⟩ := EngineAR.init_started playable player
  have start := (first hasStart).goesOn
  refine ⟨_, built, ?_⟩
  intro before after e ran active block conditional entry COLOR color converts
  have reached := (Triple.runAll fun op _ => EngineAR.perform_sound playable start op).of_run_ok
    (EngineAR.started_sound inside start) ran
  exact firesOnColour playable reached active conditional (printedEntry_word entry) converts

end Firing

local instance : Graphemes := .marks

local instance : JavaScript := .texts

theorem conditional_fires_on_colour_corridor :
    ∃ e₀, EngineAR.init EngineAR.corridor [] = .ok e₀ ∧
      FiresOnColour (final (runAll EngineAR.perform [.resetLevel, .call (.plain .turnRight),
        .call (.plain .moveFront)]) e₀) .movestepsIf (printedEntry none) (.text "#B5798B") ⟨181, 121, 139⟩ := by
  obtain ⟨e₀, built, fires⟩ := conditional_fires_on_colour EngineAR.corridor_playable [] ⟨_, List.mem_cons_self, rfl⟩
  cases built
  exact ⟨_, rfl, fires [] [.call (.plain .turnRight), .call (.plain .moveFront)] _
    (run_eq_of_trapOf_eq_none (by decide +kernel)) (by decide +kernel) _ rfl _ _ _ (by decide)⟩

end GameSession

end ArRobotCode
