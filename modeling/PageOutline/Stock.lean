import PageOutline.CommandSet

/-!
# The stock command table of RPG Maker XP

What the commands of the engine mean, in the order of their codes. Codes that only delimit arms,
close scopes or continue a text or a route (401 to 404, 408, 411 to 413, 509, 602 to 605, 655) are
described by the command that they belong to.
-/

namespace PageOutline.Stock

instance (n : Nat) : OfNat Value n := ⟨.int n⟩

instance : Coe String Value := ⟨.str⟩

/-- Messages, choices and flow of events. -/
def messageCommands : List (Code × Descriptor) := [
  (101, ⟨"Show Text", .text 401⟩),
  (102, ⟨"Show Choices", .scope
    { parameters := [.field 1 "Cancel"
        (.choice ["Disallow", "Choice 1", "Choice 2", "Choice 3", "Choice 4", "Branch"])]
      branches := [⟨"When [**]", 402, ⟨0, .isTrue⟩, some 0⟩,
        ⟨"When Cancel", 403, ⟨1, .isTrue⟩, none⟩]
      terminator := ⟨404, "Branch End"⟩
      containsCommands := false }⟩),
  (103, ⟨"Input Number", .plain [.field 0 "Variable" .variable, .field 1 "Digits" .int]⟩),
  (104, ⟨"Change Text Options", .plain [
      .field 0 "Position" (.choice ["Top", "Middle", "Bottom"]),
      .field 1 "Window Frame" (.choice ["Show", "Hide"])]⟩),
  (105, ⟨"Button Input Processing", .plain [.field 0 "Variable" .variable]⟩),
  (106, ⟨"Wait", .plain [.field 0 "Frames" .int]⟩),
  (108, ⟨"Comment", .text 408⟩),
  (111, ⟨"Conditional Branch", .scope
    { parameters := [.field 0 "Condition" (.selector [
        [.label "Switch", .field 1 "Switch" .switch, .field 2 "State" .intBool],
        [.label "Variable", .field 1 "Variable" .variable],
        [.label "Self Switch", .field 1 "Self Switch" .selfSwitch, .field 2 "State" .intBool]])]
      branches := [⟨"Else", 411, ⟨0, .isTrue⟩, none⟩]
      terminator := ⟨412, "Branch End"⟩
      containsCommands := true }⟩),
  (112, ⟨"Loop", .scope
    { parameters := []
      branches := []
      terminator := ⟨413, "Repeat Above"⟩
      containsCommands := true }⟩),
  (113, ⟨"Break Loop", .mark⟩),
  (115, ⟨"Exit Event Processing", .mark⟩),
  (116, ⟨"Erase Event", .mark⟩),
  (117, ⟨"Call Common Event", .plain [.field 0 "Common Event" .int]⟩),
  (118, ⟨"Label", .plain []⟩),
  (119, ⟨"Jump to Label", .plain []⟩)]

/-- Switches, variables, the party and access to menus. -/
def stateCommands : List (Code × Descriptor) := [
  (121, ⟨"Control Switches", .plain [
      .field 0 "First Switch" .switch,
      .field 1 "Last Switch" .switch,
      .field 2 "Value" (.choice ["ON", "OFF"])]⟩),
  (122, ⟨"Control Variables", .plain [
      .field 0 "First Variable" .variable,
      .field 1 "Last Variable" .variable,
      .field 2 "Operation" (.choice ["Set", "Add", "Sub", "Mul", "Div", "Mod"])]⟩),
  (123, ⟨"Control Self Switch", .plain [
      .field 0 "Self Switch" .selfSwitch,
      .field 1 "Value" .intBool]⟩),
  (124, ⟨"Control Timer", .plain []⟩),
  (125, ⟨"Change Gold", .plain []⟩),
  (126, ⟨"Change Items", .plain []⟩),
  (127, ⟨"Change Weapons", .plain []⟩),
  (128, ⟨"Change Armor", .plain []⟩),
  (129, ⟨"Change Party Member", .plain []⟩),
  (131, ⟨"Change Windowskin", .plain []⟩),
  (132, ⟨"Change Battle BGM", .plain []⟩),
  (133, ⟨"Change Battle End ME", .plain []⟩),
  (134, ⟨"Change Save Access", .plain [.field 0 "Save" (.choice ["Disable", "Enable"])]⟩),
  (135, ⟨"Change Menu Access", .plain [.field 0 "Menu" (.choice ["Disable", "Enable"])]⟩),
  (136, ⟨"Change Encounter", .plain [.field 0 "Encounter" (.choice ["Disable", "Enable"])]⟩)]

/-- Maps, movement, screen, pictures, weather and sound. -/
def screenCommands : List (Code × Descriptor) := [
  (201, ⟨"Transfer Player", .plain []⟩),
  (202, ⟨"Set Event Location", .plain []⟩),
  (203, ⟨"Scroll Map", .plain []⟩),
  (204, ⟨"Change Map Settings", .plain []⟩),
  (205, ⟨"Change Fog Color Tone", .plain []⟩),
  (206, ⟨"Change Fog Opacity", .plain []⟩),
  (207, ⟨"Show Animation", .plain []⟩),
  (208, ⟨"Change Transparent Flag", .plain [.field 0 "Transparent" .bool]⟩),
  (209, ⟨"Set Move Route", .route 509⟩),
  (210, ⟨"Wait for Move's Completion", .mark⟩),
  (221, ⟨"Prepare for Transition", .mark⟩),
  (222, ⟨"Execute Transition", .plain []⟩),
  (223, ⟨"Change Screen Color Tone", .plain []⟩),
  (224, ⟨"Screen Flash", .plain []⟩),
  (225, ⟨"Screen Shake", .plain []⟩),
  (231, ⟨"Show Picture", .plain []⟩),
  (232, ⟨"Move Picture", .plain []⟩),
  (233, ⟨"Rotate Picture", .plain []⟩),
  (234, ⟨"Change Picture Color Tone", .plain []⟩),
  (235, ⟨"Erase Picture", .plain []⟩),
  (236, ⟨"Set Weather Effects", .plain []⟩),
  (241, ⟨"Play BGM", .plain []⟩),
  (242, ⟨"Fade Out BGM", .plain []⟩),
  (245, ⟨"Play BGS", .plain []⟩),
  (246, ⟨"Fade Out BGS", .plain []⟩),
  (247, ⟨"Memorize BGM/BGS", .mark⟩),
  (248, ⟨"Restore BGM/BGS", .mark⟩),
  (249, ⟨"Play ME", .plain []⟩),
  (250, ⟨"Play SE", .plain []⟩),
  (251, ⟨"Stop SE", .mark⟩)]

/-- Battles, shops and actors. -/
def battleCommands : List (Code × Descriptor) := [
  (301, ⟨"Battle Processing", .plain []⟩),
  (302, ⟨"Shop Processing", .route 605⟩),
  (303, ⟨"Name Input Processing", .plain []⟩),
  (311, ⟨"Change HP", .plain []⟩),
  (312, ⟨"Change SP", .plain []⟩),
  (313, ⟨"Change State", .plain []⟩),
  (314, ⟨"Recover All", .plain []⟩),
  (315, ⟨"Change EXP", .plain []⟩),
  (316, ⟨"Change Level", .plain []⟩),
  (317, ⟨"Change Parameters", .plain []⟩),
  (318, ⟨"Change Skills", .plain []⟩),
  (319, ⟨"Change Equipment", .plain []⟩),
  (320, ⟨"Change Actor Name", .plain []⟩),
  (321, ⟨"Change Actor Class", .plain []⟩),
  (322, ⟨"Change Actor Graphic", .plain []⟩)]

/-- Enemies in battle, the system and scripts. -/
def systemCommands : List (Code × Descriptor) := [
  (331, ⟨"Change Enemy HP", .plain []⟩),
  (332, ⟨"Change Enemy SP", .plain []⟩),
  (333, ⟨"Change Enemy State", .plain []⟩),
  (334, ⟨"Enemy Recover All", .plain []⟩),
  (335, ⟨"Enemy Appearance", .plain []⟩),
  (336, ⟨"Enemy Transform", .plain []⟩),
  (337, ⟨"Show Battle Animation", .plain []⟩),
  (338, ⟨"Deal Damage", .plain []⟩),
  (339, ⟨"Force Action", .plain []⟩),
  (340, ⟨"Abort Battle", .mark⟩),
  (351, ⟨"Call Menu Screen", .mark⟩),
  (352, ⟨"Call Save Screen", .mark⟩),
  (353, ⟨"Game Over", .mark⟩),
  (354, ⟨"Return to Title Screen", .mark⟩),
  (355, ⟨"Script", .text 655⟩)]

/-- The outcome of a battle. The escape and lose flags live on the battle command before it, so
the conditions of its arms are nominal. -/
def outcomeCommands : List (Code × Descriptor) := [
  (601, ⟨"If Win", .scope
    { parameters := []
      branches := [⟨"If Escape", 602, ⟨0, .isTrue⟩, none⟩, ⟨"If Lose", 603, ⟨0, .isTrue⟩, none⟩]
      terminator := ⟨604, "Branch End"⟩
      containsCommands := true }⟩)]

/-- The stock commands of the engine. -/
def xp : CommandSet :=
  ⟨messageCommands ++ stateCommands ++ screenCommands ++ battleCommands ++ systemCommands ++
    outcomeCommands⟩

end PageOutline.Stock
