import Roboflow.Library.UnixPath
import Roboflow.Lerobot.VideoBuffers

/-! The paths of video files, `formats/common/path_schemes.rs`: where a scheme puts the video of an
episode and a camera, and what episode it reads off a path. Paths are texts here, and the same when
their components are. -/
namespace Roboflow.Dataset
open Library Library.UnixPath
open Roboflow.Lerobot (padded)

/-- `usize::from_str`. -/
def parseUsize (text : List Char) : Option UInt64 :=
  let digits := if text.head? = some '+' then text.tail else text
  if digits ≠ [] ∧ digits.all Char.isDigit then
    let value := Nat.ofDigitChars 10 digits 0
    if value < 2 ^ 64 then some (.ofNat value) else none
  else none

/-- The number in a name such as `episode_000042.mp4`. -/
def parseFileName (name : List Char) : Option UInt64 := do
  let rest ← name.dropPrefix? "episode_".toList
  let digits ← rest.dropSuffix? ".mp4".toList
  parseUsize digits

/-- The number in a component such as `episode_42`. -/
def parseComponent : PathComponent → Option UInt64
  | .normal name => do
    let digits ← name.dropPrefix? "episode_".toList
    parseUsize digits
  | _ => none

/-- `episode_{episode:06}.mp4`. -/
def episodeFile (episode : UInt64) : List Char :=
  "episode_".toList ++ (padded 6 episode.toNat).toList ++ ".mp4".toList

/-- `episode_{episode}`. -/
def episodeFolder (episode : UInt64) : List Char :=
  "episode_".toList ++ (padded 0 episode.toNat).toList

/-- `chunk-{chunk:03}`. -/
def chunkFolder (chunk : UInt64) : List Char := "chunk-".toList ++ (padded 3 chunk.toNat).toList

structure VideoPathScheme where
  videoPath : UInt64 → List Char → UInt64 → List Char
  parseEpisode : List Char → Option UInt64

def leRobotVideoPathScheme (pathPrefix : List Char) : VideoPathScheme where
  videoPath episode camera chunk :=
    push (push (push (push pathPrefix "videos".toList) (chunkFolder chunk)) camera)
      (episodeFile episode)
  parseEpisode path := (fileName (components path)).bind parseFileName

def rldsVideoPathScheme (pathPrefix : List Char) : VideoPathScheme where
  videoPath episode camera _ :=
    push (push (push pathPrefix (episodeFolder episode)) "videos".toList)
      (camera ++ ".mp4".toList)
  parseEpisode path := (components path).findSome? parseComponent

def flatVideoPathScheme (pathPrefix : List Char) : VideoPathScheme where
  videoPath episode camera _ := push (push pathPrefix camera) (episodeFile episode)
  parseEpisode path := (fileName (components path)).bind parseFileName

/-! ### Numbers in names -/

theorem parseUsize_padded (width : Nat) (n : UInt64) :
    parseUsize (padded width n.toNat).toList = some n := by
  have digits : ∀ c ∈ (padded width n.toNat).toList, c.isDigit = true :=
    fun c member => Lerobot.isDigit_of_mem_padded member
  have plain : (padded width n.toNat).toList.head? ≠ some '+' := by
    intro sign
    exact absurd (digits _ (List.mem_of_head? sign)) (by decide)
  have some_ : (padded width n.toNat).toList ≠ [] := by
    simp [padded, List.leftpad, Nat.toDigits_ne_nil]
  unfold parseUsize
  simp only [if_neg plain]
  rw [if_pos ⟨some_, List.all_eq_true.2 digits⟩, Lerobot.padded_value, if_pos n.toNat_lt,
    UInt64.ofNat_toNat]

theorem dropPrefix_append (start rest : List Char) :
    (start ++ rest).dropPrefix? start = some rest :=
  List.dropPrefix?_append_of_beq rest (beq_self_eq_true start)

theorem dropSuffix_append (rest ending : List Char) :
    (rest ++ ending).dropSuffix? ending = some rest :=
  List.dropSuffix?_eq_some_iff.2 ⟨ending, rfl, beq_self_eq_true ending⟩

theorem parseFileName_episodeFile (episode : UInt64) :
    parseFileName (episodeFile episode) = some episode := by
  unfold parseFileName episodeFile
  rw [List.append_assoc, dropPrefix_append]
  simp only [Option.bind_eq_bind, Option.bind_some]
  rw [dropSuffix_append, Option.bind_some]
  exact parseUsize_padded 6 episode

theorem parseComponent_episodeFolder (episode : UInt64) :
    parseComponent (.normal (episodeFolder episode)) = some episode := by
  unfold parseComponent episodeFolder
  simp only [dropPrefix_append, Option.bind_eq_bind, Option.bind_some]
  exact parseUsize_padded 0 episode

theorem episodeFile_injective {episode episode' : UInt64}
    (same : episodeFile episode = episodeFile episode') : episode = episode' := by
  have parsed := congrArg parseFileName same
  rw [parseFileName_episodeFile, parseFileName_episodeFile] at parsed
  exact Option.some.inj parsed

/-! ### Components of the paths -/

theorem slash_not_mem_episodeFile (episode : UInt64) : '/' ∉ episodeFile episode := by
  unfold episodeFile
  rw [List.mem_append, List.mem_append]
  rintro ((start | digits) | ending)
  · exact absurd start (by decide)
  · exact Lerobot.slash_not_mem_padded _ _ digits
  · exact absurd ending (by decide)

theorem slash_not_mem_episodeFolder (episode : UInt64) : '/' ∉ episodeFolder episode := by
  unfold episodeFolder
  rw [List.mem_append]
  rintro (start | digits)
  · exact absurd start (by decide)
  · exact Lerobot.slash_not_mem_padded _ _ digits

theorem slash_not_mem_chunkFolder (chunk : UInt64) : '/' ∉ chunkFolder chunk := by
  unfold chunkFolder
  rw [List.mem_append]
  rintro (start | digits)
  · exact absurd start (by decide)
  · exact Lerobot.slash_not_mem_padded _ _ digits

theorem episodeFolder_injective {episode episode' : UInt64}
    (same : episodeFolder episode = episodeFolder episode') : episode = episode' := by
  have parsed := congrArg (fun name => parseComponent (.normal name)) same
  simp only [parseComponent_episodeFolder] at parsed
  exact Option.some.inj parsed

theorem chunkFolder_injective {chunk chunk' : UInt64} (same : chunkFolder chunk = chunkFolder chunk') :
    chunk = chunk' := by
  have digits := String.toList_inj.1 (List.append_cancel_left same)
  exact UInt64.toNat_inj.1 (Lerobot.padded_injective digits)

theorem long_append_left {start : List Char} (long : 2 < start.length) (rest : List Char) :
    2 < (start ++ rest).length := by
  rw [List.length_append]
  omega

theorem long_append_right {ending : List Char} (long : 2 < ending.length) (rest : List Char) :
    2 < (rest ++ ending).length := by
  rw [List.length_append]
  omega

theorem episodeFile_long (episode : UInt64) : 2 < (episodeFile episode).length :=
  long_append_right (by decide) _

theorem episodeFolder_long (episode : UInt64) : 2 < (episodeFolder episode).length :=
  long_append_left (by decide) _

theorem chunkFolder_long (chunk : UInt64) : 2 < (chunkFolder chunk).length :=
  long_append_left (by decide) _

/-- A camera's name, as a directory below another. -/
theorem parts_camera {camera : List Char} (plain : '/' ∉ camera) :
    parts camera = (ofSegment camera).toList := by
  rw [parts, List.splitOn_eq_singleton plain]
  cases kept : ofSegment camera <;> simp [kept]

/-- Names pushed one after another, as one list. -/
theorem pushed_names {α : Type} (start middle : List α) (first second last : α) :
    start ++ [first] ++ [second] ++ middle ++ [last] = start ++ ([first, second] ++ middle ++ [last]) := by
  simp

section
variable (pathPrefix : List Char) (episode : UInt64) {camera : List Char} (chunk : UInt64)

theorem leRobot_components (plain : '/' ∉ camera) :
    components ((leRobotVideoPathScheme pathPrefix).videoPath episode camera chunk) =
      components pathPrefix ++ ([PathComponent.normal "videos".toList,
        PathComponent.normal (chunkFolder chunk)] ++ (ofSegment camera).toList ++
          [PathComponent.normal (episodeFile episode)]) := by
  have relative : camera.head? ≠ some '/' := fun first => plain (List.mem_of_head? first)
  have videos : '/' ∉ "videos".toList := by decide
  have some_ : push (push pathPrefix "videos".toList) (chunkFolder chunk) ≠ [] :=
    push_ne_nil _ (List.ne_nil_of_length_pos ((Nat.zero_lt_succ 1).trans (chunkFolder_long chunk)))
  unfold leRobotVideoPathScheme
  simp only
  rw [components_push_name _ (slash_not_mem_episodeFile episode) (episodeFile_long episode),
    components_push relative, if_neg some_,
    components_push_name _ (slash_not_mem_chunkFolder chunk) (chunkFolder_long chunk),
    components_push_name _ videos (by decide), parts_camera plain]
  exact pushed_names _ _ _ _ _

theorem rlds_components (plain : '/' ∉ camera) :
    components ((rldsVideoPathScheme pathPrefix).videoPath episode camera chunk) =
      components pathPrefix ++ [PathComponent.normal (episodeFolder episode),
        PathComponent.normal "videos".toList, PathComponent.normal (camera ++ ".mp4".toList)] := by
  have videos : '/' ∉ "videos".toList := by decide
  have file : '/' ∉ camera ++ ".mp4".toList := by
    rw [List.mem_append]
    rintro (name | ending)
    · exact plain name
    · exact absurd ending (by decide)
  unfold rldsVideoPathScheme
  simp only
  rw [components_push_name _ file (long_append_right (by decide) camera),
    components_push_name _ videos (by decide),
    components_push_name _ (slash_not_mem_episodeFolder episode) (episodeFolder_long episode)]
  rw [List.append_assoc, List.append_assoc]
  rfl

theorem flat_components (plain : '/' ∉ camera) :
    components ((flatVideoPathScheme pathPrefix).videoPath episode camera chunk) =
      (if pathPrefix = [] then components camera
        else components pathPrefix ++ (ofSegment camera).toList) ++
        [.normal (episodeFile episode)] := by
  have relative : camera.head? ≠ some '/' := fun first => plain (List.mem_of_head? first)
  unfold flatVideoPathScheme
  simp only
  rw [components_push_name _ (slash_not_mem_episodeFile episode) (episodeFile_long episode),
    components_push relative, parts_camera plain]

end

/-! ### What is read off a path -/

inductive SchemeKind where
  | leRobot
  | rlds
  | flat
  deriving DecidableEq

def SchemeKind.scheme : SchemeKind → List Char → VideoPathScheme
  | .leRobot => leRobotVideoPathScheme
  | .rlds => rldsVideoPathScheme
  | .flat => flatVideoPathScheme

/-- The first component of the path that bears a number bears this one. -/
def FirstNumber (path : List PathComponent) (number : UInt64) : Prop :=
  ∃ before component after, path = before ++ component :: after ∧
    parseComponent component = some number ∧ ∀ other ∈ before, parseComponent other = none

/-- The scheme reads folders, and one of the prefix comes first. -/
def Misread (kind : SchemeKind) (pathPrefix : List Char) (episode : UInt64) : Prop :=
  kind = .rlds ∧ ∃ other ≠ episode, FirstNumber (components pathPrefix) other

/-- Names that lead to no other directory. -/
def Silent (camera : List Char) : Prop := camera = [] ∨ camera = ['.']

/-- Both cameras write to the directory above their own. A path that is a dot only keeps it. -/
def SameFolder (kind : SchemeKind) (pathPrefix camera camera' : List Char) : Prop :=
  kind ≠ .rlds ∧ ¬(kind = .flat ∧ pathPrefix = []) ∧ Silent camera ∧ Silent camera'

theorem fileName_concat (path : List PathComponent) (name : List Char) :
    fileName (path ++ [.normal name]) = some name := by
  unfold fileName
  rw [List.getLast?_concat]

theorem leRobot_parsed (pathPrefix : List Char) (episode : UInt64) {camera : List Char}
    (plain : '/' ∉ camera) (chunk : UInt64) :
    let scheme := leRobotVideoPathScheme pathPrefix
    scheme.parseEpisode (scheme.videoPath episode camera chunk) = some episode := by
  change (fileName (components _)).bind parseFileName = some episode
  rw [leRobot_components pathPrefix episode chunk plain, ← List.append_assoc, fileName_concat,
    Option.bind_some]
  exact parseFileName_episodeFile episode

theorem flat_parsed (pathPrefix : List Char) (episode : UInt64) {camera : List Char}
    (plain : '/' ∉ camera) (chunk : UInt64) :
    let scheme := flatVideoPathScheme pathPrefix
    scheme.parseEpisode (scheme.videoPath episode camera chunk) = some episode := by
  change (fileName (components _)).bind parseFileName = some episode
  rw [flat_components pathPrefix episode chunk plain, fileName_concat, Option.bind_some]
  exact parseFileName_episodeFile episode

theorem rlds_parsed_iff (pathPrefix : List Char) (episode : UInt64) {camera : List Char}
    (plain : '/' ∉ camera) (chunk : UInt64) :
    let scheme := rldsVideoPathScheme pathPrefix
    scheme.parseEpisode (scheme.videoPath episode camera chunk) = some episode ↔
      ¬∃ other ≠ episode, FirstNumber (components pathPrefix) other := by
  change (components _).findSome? parseComponent = some episode ↔ _
  have own : List.findSome? parseComponent [.normal (episodeFolder episode),
      .normal "videos".toList, .normal (camera ++ ".mp4".toList)] = some episode := by
    rw [List.findSome?_cons, parseComponent_episodeFolder]
  rw [rlds_components pathPrefix episode chunk plain, List.findSome?_append, own]
  cases first : (components pathPrefix).findSome? parseComponent with
  | none =>
    refine iff_of_true rfl ?_
    rintro ⟨other, -, numbered⟩
    rw [FirstNumber, ← List.findSome?_eq_some_iff, first] at numbered
    cases numbered
  | some number =>
    have numbered : FirstNumber (components pathPrefix) number :=
      List.findSome?_eq_some_iff.1 first
    rw [Option.some_or, Option.some_inj]
    constructor
    · rintro rfl ⟨other, differs, others⟩
      rw [FirstNumber, ← List.findSome?_eq_some_iff, first] at others
      exact differs (Option.some.inj others).symm
    · intro alone
      by_contra differs
      exact alone ⟨number, differs, numbered⟩

/-! ### Which paths are the same -/

theorem ofSegment_none_iff {camera : List Char} : ofSegment camera = none ↔ Silent camera := by
  unfold ofSegment Silent
  split
  · rename_i silent
    exact iff_of_true rfl silent
  · rename_i named
    refine iff_of_false ?_ named
    split <;> simp

theorem ofSegment_some {camera : List Char} {component : PathComponent}
    (kept : ofSegment camera = some component) :
    component = .normal camera ∨ component = .parentDir ∧ camera = ['.', '.'] := by
  unfold ofSegment at kept
  by_cases silent : camera = [] ∨ camera = ['.']
  · rw [if_pos silent] at kept
    cases kept
  · rw [if_neg silent] at kept
    by_cases up : camera = ['.', '.']
    · rw [if_pos up] at kept
      exact .inr ⟨(Option.some.inj kept).symm, up⟩
    · rw [if_neg up] at kept
      exact .inl (Option.some.inj kept).symm

theorem ofSegment_eq_iff {camera camera' : List Char} :
    ofSegment camera = ofSegment camera' ↔ camera = camera' ∨ Silent camera ∧ Silent camera' := by
  constructor
  · intro same
    cases kept : ofSegment camera with
    | none => exact .inr ⟨ofSegment_none_iff.1 kept, ofSegment_none_iff.1 (same ▸ kept)⟩
    | some component =>
      rcases ofSegment_some kept with rfl | ⟨rfl, up⟩
      · rcases ofSegment_some (same ▸ kept) with named | ⟨named, -⟩
        · exact .inl (PathComponent.normal.inj named)
        · cases named
      · rcases ofSegment_some (same ▸ kept) with named | ⟨-, up'⟩
        · cases named
        · exact .inl (up.trans up'.symm)
  · rintro (rfl | ⟨silent, silent'⟩)
    · rfl
    · rw [ofSegment_none_iff.2 silent, ofSegment_none_iff.2 silent']

theorem folder_eq_iff {camera camera' : List Char} :
    (ofSegment camera).toList = (ofSegment camera').toList ↔
      camera = camera' ∨ Silent camera ∧ Silent camera' := by
  rw [← ofSegment_eq_iff]
  cases ofSegment camera <;> cases ofSegment camera' <;> simp

theorem components_plain {camera : List Char} (plain : '/' ∉ camera) :
    components camera = if camera = ['.'] then [.curDir] else (ofSegment camera).toList := by
  have relative : camera.head? ≠ some '/' := fun first => plain (List.mem_of_head? first)
  rw [components, if_neg relative, List.splitOn_eq_singleton plain, parts_camera plain]
  by_cases dot : camera = ['.']
  · subst dot
    rfl
  · simp [dot]

theorem components_plain_injective {camera camera' : List Char} (plain : '/' ∉ camera)
    (plain' : '/' ∉ camera') (same : components camera = components camera') : camera = camera' := by
  rw [components_plain plain, components_plain plain'] at same
  have apart : ∀ name, [PathComponent.curDir] ≠ (ofSegment name).toList := by
    intro name clash
    have kept : ofSegment name = some .curDir := by
      cases segment : ofSegment name with
      | none => simp [segment] at clash
      | some component => simpa [segment] using clash.symm
    rcases ofSegment_some kept with named | ⟨named, -⟩ <;> cases named
  by_cases dot : camera = ['.'] <;> by_cases dot' : camera' = ['.']
  · rw [dot, dot']
  · rw [if_pos dot, if_neg dot'] at same
    exact absurd same (apart camera')
  · rw [if_neg dot, if_pos dot'] at same
    exact absurd same.symm (apart camera)
  · rw [if_neg dot, if_neg dot'] at same
    rcases folder_eq_iff.1 same with equal | ⟨silent, silent'⟩
    · exact equal
    · rw [silent.resolve_right dot, silent'.resolve_right dot']

theorem leRobot_same_iff (pathPrefix : List Char) (episode episode' chunk chunk' : UInt64)
    {camera camera' : List Char} (plain : '/' ∉ camera) (plain' : '/' ∉ camera') :
    let scheme := leRobotVideoPathScheme pathPrefix
    components (scheme.videoPath episode camera chunk) =
        components (scheme.videoPath episode' camera' chunk') ↔
      episode = episode' ∧ chunk = chunk' ∧ (camera = camera' ∨ Silent camera ∧ Silent camera') := by
  intro scheme
  rw [leRobot_components pathPrefix episode chunk plain,
    leRobot_components pathPrefix episode' chunk' plain', List.append_cancel_left_eq]
  constructor
  · intro same
    obtain ⟨folders, file⟩ := List.append_inj' same (by simp)
    obtain ⟨chunks, cameras⟩ := List.append_inj folders (by simp)
    simp only [List.cons.injEq, PathComponent.normal.injEq, and_true, true_and] at file chunks
    exact ⟨episodeFile_injective file, chunkFolder_injective chunks, folder_eq_iff.1 cameras⟩
  · rintro ⟨rfl, rfl, cameras⟩
    rw [folder_eq_iff.2 cameras]

theorem flat_same_iff (pathPrefix : List Char) (episode episode' chunk chunk' : UInt64)
    {camera camera' : List Char} (plain : '/' ∉ camera) (plain' : '/' ∉ camera') :
    let scheme := flatVideoPathScheme pathPrefix
    components (scheme.videoPath episode camera chunk) =
        components (scheme.videoPath episode' camera' chunk') ↔
      episode = episode' ∧
        (camera = camera' ∨ pathPrefix ≠ [] ∧ Silent camera ∧ Silent camera') := by
  intro scheme
  rw [flat_components pathPrefix episode chunk plain,
    flat_components pathPrefix episode' chunk' plain']
  constructor
  · intro same
    obtain ⟨folders, file⟩ := List.append_inj' same (by simp)
    simp only [List.cons.injEq, PathComponent.normal.injEq, and_true] at file
    refine ⟨episodeFile_injective file, ?_⟩
    by_cases empty : pathPrefix = []
    · rw [if_pos empty, if_pos empty] at folders
      exact .inl (components_plain_injective plain plain' folders)
    · rw [if_neg empty, if_neg empty, List.append_cancel_left_eq] at folders
      exact (folder_eq_iff.1 folders).imp_right fun silent => ⟨empty, silent⟩
  · rintro ⟨rfl, rfl | ⟨some_, silent⟩⟩
    · rfl
    · rw [if_neg some_, if_neg some_, folder_eq_iff.2 (.inr silent)]

theorem rlds_same_iff (pathPrefix : List Char) (episode episode' chunk chunk' : UInt64)
    {camera camera' : List Char} (plain : '/' ∉ camera) (plain' : '/' ∉ camera') :
    let scheme := rldsVideoPathScheme pathPrefix
    components (scheme.videoPath episode camera chunk) =
        components (scheme.videoPath episode' camera' chunk') ↔
      episode = episode' ∧ camera = camera' := by
  intro scheme
  rw [rlds_components pathPrefix episode chunk plain,
    rlds_components pathPrefix episode' chunk' plain', List.append_cancel_left_eq]
  simp only [List.cons.injEq, PathComponent.normal.injEq, and_true, true_and,
    List.append_cancel_right_eq]
  constructor
  · rintro ⟨episodes, cameras⟩
    exact ⟨episodeFolder_injective episodes, cameras⟩
  · rintro ⟨rfl, rfl⟩
    exact ⟨rfl, rfl⟩

theorem not_misread (other : kind ≠ .rlds) : ¬Misread kind pathPrefix episode := by
  intro misread
  exact other misread.1

/-- An episode is read back unless a folder of the prefix is taken for it, and paths tell episodes
and cameras apart unless both cameras have no directory. A chunk is told apart where there is one. -/
theorem path_schemes_invert_iff (kind : SchemeKind) (pathPrefix : List Char)
    (chunkOf : UInt64 → UInt64) (episode episode' chunk chunk' : UInt64)
    {camera camera' : List Char} (plain : '/' ∉ camera) (plain' : '/' ∉ camera') :
    let scheme := kind.scheme pathPrefix
    (scheme.parseEpisode (scheme.videoPath episode camera chunk) = some episode ↔
        ¬Misread kind pathPrefix episode) ∧
      (((episode, camera) ≠ (episode', camera') →
          components (scheme.videoPath episode camera (chunkOf episode)) ≠
            components (scheme.videoPath episode' camera' (chunkOf episode'))) ↔
        ¬(episode = episode' ∧ camera ≠ camera' ∧ SameFolder kind pathPrefix camera camera')) ∧
      (kind = .leRobot → chunk ≠ chunk' →
        components (scheme.videoPath episode camera chunk) ≠
          components (scheme.videoPath episode camera chunk')) := by
  intro scheme
  cases kind with
  | leRobot =>
    refine ⟨?_, ?_, ?_⟩
    · exact iff_of_true (leRobot_parsed pathPrefix episode plain chunk) (not_misread (by simp))
    · have same := leRobot_same_iff pathPrefix episode episode' (chunkOf episode) (chunkOf episode')
        plain plain'
      simp only [scheme, SchemeKind.scheme, ne_eq, same, SameFolder, Prod.mk.injEq]
      constructor
      · rintro apart ⟨rfl, differs, -, -, silent⟩
        exact apart (fun equal => differs equal.2) ⟨rfl, rfl, .inr silent⟩
      · rintro apart differs ⟨rfl, -, equal | silent⟩
        · exact differs ⟨rfl, equal⟩
        · exact apart ⟨rfl, fun equal => differs ⟨rfl, equal⟩, by simp, by simp, silent⟩
    · rintro - differs same
      exact differs ((leRobot_same_iff pathPrefix _ _ _ _ plain plain).1 same).2.1
  | rlds =>
    refine ⟨?_, ?_, ?_⟩
    · rw [Misread, and_iff_right rfl]
      exact rlds_parsed_iff pathPrefix episode plain chunk
    · refine iff_of_true ?_ fun clash => clash.2.2.1 rfl
      intro differs same
      obtain ⟨episodes, cameras⟩ := (rlds_same_iff pathPrefix _ _ _ _ plain plain').1 same
      exact differs (Prod.ext episodes cameras)
    · intro other
      cases other
  | flat =>
    refine ⟨?_, ?_, ?_⟩
    · exact iff_of_true (flat_parsed pathPrefix episode plain chunk) (not_misread (by simp))
    · have same := flat_same_iff pathPrefix episode episode' (chunkOf episode) (chunkOf episode') plain
        plain'
      simp only [scheme, SchemeKind.scheme, ne_eq, same, SameFolder, Prod.mk.injEq]
      constructor
      · rintro apart ⟨rfl, differs, -, some_, silent⟩
        exact apart (fun equal => differs equal.2) ⟨rfl, .inr ⟨by simpa using some_, silent⟩⟩
      · rintro apart differs ⟨rfl, equal | ⟨some_, silent⟩⟩
        · exact differs ⟨rfl, equal⟩
        · exact apart ⟨rfl, fun equal => differs ⟨rfl, equal⟩, by simp, by simpa using some_, silent⟩
    · intro other
      cases other

theorem path_schemes_invert_data :
    let scheme := SchemeKind.leRobot.scheme "data".toList
    scheme.parseEpisode (scheme.videoPath 7 "top".toList 0) = some 7 :=
  have plain : '/' ∉ "top".toList := by decide
  have plain' : '/' ∉ "side".toList := by decide
  (path_schemes_invert_iff .leRobot "data".toList (fun _ => 0) 7 8 0 1 plain plain').1.2
    (not_misread (by simp))

/-- The third episode below `runs/episode_7`, and two cameras that write over each other. -/
theorem folder_of_prefix_read :
    (rldsVideoPathScheme "runs/episode_7".toList).parseEpisode
        ((rldsVideoPathScheme "runs/episode_7".toList).videoPath 3 "top".toList 0) = some 7 ∧
      components ((leRobotVideoPathScheme "data".toList).videoPath 0 [] 0) =
        components ((leRobotVideoPathScheme "data".toList).videoPath 0 ['.'] 0) := by
  constructor <;> decide

end Roboflow.Dataset
