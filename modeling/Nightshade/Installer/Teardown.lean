import Mathlib
import Nightshade.Foundation.MountTree

/-! An install that fails anywhere, and what is undone afterwards. Each command takes effect or fails without effect; what
is to be undone is what the session has recorded by then. -/
namespace Nightshade.Installer
open Foundation

def BPOOL : String := "bpool"
def RPOOL : String := "rpool"
def BOOT_DATASET : String := "bpool/BOOT/nightshade"
def ROOT_DATASET : String := "rpool/ROOT/nightshade"

/-- A path below the target. -/
abbrev Place := List String

/-- What a mount shows: a dataset of a pool, the ESP of a disk, a tree bound from elsewhere, or the processes. -/
inductive Shown where
  | dataset (pool name : String)
  | esp (disk : ℕ)
  | bound (path : String)
  | proc
  deriving DecidableEq, Repr

def Shown.isDataset : Shown → Bool
  | .dataset _ _ => true
  | _ => false

def Shown.inPool (pool : String) : Shown → Bool
  | .dataset p _ => p == pool
  | _ => false

/-- Everything that has to be undone before the installer exits. -/
structure Session where
  mounts : List Place
  bindMounts : List Place
  pools : List String
  deriving DecidableEq, Repr

def Session.new : Session := ⟨[],[],[]⟩

/-- What is mounted in the target, the newest first, which pools are imported, and what is recorded of it. -/
structure World where
  mounted : List (Mount Shown String)
  imported : List String
  session : Session
  deriving DecidableEq, Repr

/-- Nothing mounted in the target, and no pool imported. -/
def World.clean : World := ⟨[],[],Session.new⟩

/-! ### Undoing -/

/-- A pool is busy while something is mounted from it, or inside a file system of it. -/
def busy (pool : String) (mounted : List (Mount Shown String)) : Bool :=
  mounted.any (fun m => m.source.inPool pool ||
    mounted.any (fun fs => fs.source.inPool pool && m.inside fs.point))

/-- `zpool export`. -/
def exportPool (mounted : List (Mount Shown String)) (pool : String) (imported : List String) : Option (List String) :=
  if imported.contains pool && !busy pool mounted then some (imported.erase pool) else none

/-- `umount -R`, and `umount -lR` when it fails. -/
def detach (mounted : List (Mount Shown String)) (place : Place) : List (Mount Shown String) :=
  match umountTree place mounted with
  | some mounted => mounted
  | none => (umountTree place mounted).getD mounted

/-- Exported at once, at the second try, or by force. -/
def giveUpPool (mounted : List (Mount Shown String)) (imported : List String) (pool : String) : List String :=
  match exportPool mounted pool imported with
  | some imported => imported
  | none =>
    match exportPool mounted pool imported with
    | some imported => imported
    | none => (exportPool mounted pool imported).getD imported

/-- Unwind in strict reverse dependency order: binds, then filesystems, then the datasets underneath them, then the
pools, in the order in which they were created. -/
def teardown (w : World) : World :=
  let mounted := w.session.bindMounts.reverse.foldl detach w.mounted
  let mounted := w.session.mounts.reverse.foldl (fun mounted place => (umount place mounted).getD mounted) mounted
  let mounted := umountAll Shown.isDataset mounted
  ⟨mounted,w.session.pools.foldl (giveUpPool mounted) w.imported,Session.new⟩

/-! ### Installing -/

/-- A step of an install: a command, with the pool it creates and what it mounts, the newest first; what the session
records; and the release of a pool that is imported already, which never fails. -/
inductive Step where
  | command (line : String) (pool : Option String) (mounts : List (Mount Shown String))
  | pushPool (pool : String)
  | pushMount (place : Place)
  | setBindMounts (places : List Place)
  | releaseExisting (pool : String)

/-- The commands of a step: a step that is none cannot fail. -/
def Step.commands : Step → ℕ
  | .command _ _ _ => 1
  | _ => 0

def Step.line : Step → String
  | .command line _ _ => line
  | _ => ""

def Step.mounts : Step → List (Mount Shown String)
  | .command _ _ mounts => mounts
  | _ => []

def Step.effect : Step → World → World
  | .command _ pool mounts, w => {w with mounted := mounts ++ w.mounted, imported := w.imported ++ pool.toList}
  | .pushPool pool, w => {w with session := {w.session with pools := w.session.pools ++ [pool]}}
  | .pushMount place, w => {w with session := {w.session with mounts := w.session.mounts ++ [place]}}
  | .setBindMounts places, w => {w with session := {w.session with bindMounts := places}}
  | .releaseExisting pool, w =>
    if w.imported.contains pool then
      let mounted := umountAll Shown.isDataset w.mounted
      {w with mounted := mounted, imported := (exportPool mounted pool w.imported).getD w.imported}
    else w

/-- Run until a command fails, after so many that took effect. -/
def run : ℕ → List Step → World → Except String Unit × World
  | _, [], w => (.ok (),w)
  | k, step::steps, w =>
    if k < step.commands then (.error step.line,w) else run (k - step.commands) steps (step.effect w)

/-- A command that neither mounts anything nor creates a pool. -/
def plain (line : String) : Step := .command line none []

/-- The functions of an install that mount nothing and create no pool. -/
inductive Chore where
  | prepare (disk : ℕ)
  | settle
  | source
  | copyToTarget
  | stripLiveLayer
  | verifyPamStack
  | writeFstab
  | setHostname
  | enableZfsServices
  | createAccount
  | writeConfiguration
  | writeCachefile
  | regenerateInitramfs
  | configureGrub
  | installToEsps
  | installEspSync
  | saveLog

def createBpool : List Step := [.command "zpool create bpool" (some BPOOL) []]

def createRpool : List Step := [.command "zpool create rpool" (some RPOOL) []]

/-- `zfs create`, which mounts what may be mounted. -/
def create (name : String) (mounts : List (Mount Shown String)) : Step :=
  .command ("zfs create " ++ name) none mounts

def createDatasets : List Step :=
  [create "rpool/ROOT" [],
    create ROOT_DATASET [],
    .command ("zfs mount " ++ ROOT_DATASET) none [⟨.dataset RPOOL ROOT_DATASET,[]⟩],
    create "bpool/BOOT" [],
    create BOOT_DATASET [⟨.dataset BPOOL BOOT_DATASET,["boot"]⟩],
    create (ROOT_DATASET ++ "/var") [],
    create (ROOT_DATASET ++ "/var/log") [⟨.dataset RPOOL (ROOT_DATASET ++ "/var/log"),["var","log"]⟩],
    create (ROOT_DATASET ++ "/var/tmp") [⟨.dataset RPOOL (ROOT_DATASET ++ "/var/tmp"),["var","tmp"]⟩],
    plain "chmod 1777"]

def espMountpoint (index : ℕ) : Place := ["boot",if index = 0 then "efi" else "efi" ++ toString (index + 1)]

def espMount (index : ℕ) : Mount Shown String := ⟨.esp index,espMountpoint index⟩

/-- Format and mount an ESP, and ask for its UUID, which must not be empty. -/
def formatEsp (index : ℕ) : List Step :=
  [plain ("mkfs.vfat NSEFI" ++ toString index),plain "create_dir_all",.command "mount" none [espMount index],
    plain "blkid",plain "blkid reported no UUID"]

/-- Format and mount an ESP on every selected disk. -/
def formatEsps (disks : ℕ) : List Step := (List.range disks).flatMap formatEsp

/-- A recursive bind: the tree itself, and on top of it all that is mounted in it. -/
def treeMounts (submounts : String → List Place) (path name : String) : List (Mount Shown String) :=
  (submounts path).map (fun place => ⟨.bound path,name::place⟩) ++ [⟨.bound path,[name]⟩]

def bindOne (submounts : String → List Place) (path name : String) : List Step :=
  [plain "create_dir_all",.command "mount --rbind" none (treeMounts submounts path name),plain "mount --make-rslave"]

def procMount : Mount Shown String := ⟨.proc,["proc"]⟩

/-- Bind the host's pseudo-filesystems into the target. -/
def bindPseudoFilesystems (submounts : String → List Place) : List Step :=
  bindOne submounts "/dev" "dev" ++ bindOne submounts "/sys" "sys" ++ bindOne submounts "/run" "run" ++
    [plain "create_dir_all",.command "mount -t proc" none [procMount]]

def boundPlaces : List Place := [["dev"],["sys"],["run"],["proc"]]

section Install
variable (chores : Chore → List String) (submounts : String → List Place) (disks : ℕ)

def chore (c : Chore) : List Step := (chores c).map plain

/-- Pools, and their datasets. -/
def beforeEsps : List Step :=
  [.releaseExisting BPOOL,.releaseExisting RPOOL] ++
  (List.range disks).flatMap (fun disk => chore chores (.prepare disk)) ++ chore chores .settle ++
  createBpool ++ [.pushPool BPOOL] ++
  createRpool ++ [.pushPool RPOOL] ++
  createDatasets

/-- The ESPs are recorded once all of them are there. -/
def afterEsps : List Step :=
  (List.range disks).map (fun index => .pushMount (espMountpoint index)) ++
  [Chore.source,Chore.copyToTarget].flatMap (chore chores)

/-- What is done in the target once everything is mounted. -/
def choresInTarget : List Chore :=
  [.stripLiveLayer,.verifyPamStack,.writeFstab,.setHostname,.enableZfsServices,.createAccount,.writeConfiguration,
    .writeCachefile,.regenerateInitramfs,.configureGrub,.installToEsps] ++
  (if 2 ≤ disks then [.installEspSync] else []) ++ [.saveLog]

/-- The binds are recorded once all of them are there. -/
def afterBinds : List Step := .setBindMounts boundPlaces::(choresInTarget disks).flatMap (chore chores)

def installSteps : List Step :=
  beforeEsps chores disks ++ (formatEsps disks ++ (afterEsps chores disks ++
    (bindPseudoFilesystems submounts ++ afterBinds chores disks)))

/-- An install on a clean machine in which so many commands take effect, and the next one, if there is one, fails. -/
def install (k : ℕ) : Except String Unit × World := run k (installSteps chores submounts disks) World.clean

end Install

/-! ### Runs, part by part -/

def commandsOf (steps : List Step) : ℕ := (steps.map Step.commands).sum

/-- What the world is after all of the steps. -/
def complete (steps : List Step) (w : World) : World := steps.foldl (fun w step => step.effect w) w

/-- All that steps mount, the newest first. -/
def made (steps : List Step) : List (Mount Shown String) := steps.foldr (fun step mounts => mounts ++ step.mounts) []

/-- A command that creates no pool. -/
def Step.Mounts (step : Step) : Prop := ∃ line mounts, step = .command line none mounts

variable {chores : Chore → List String} {submounts : String → List Place} {disks k : ℕ} {w : World} {p q : List Step}

theorem commandsOf_append : commandsOf (p ++ q) = commandsOf p + commandsOf q := by
  rw [commandsOf,List.map_append,List.sum_append]
  rfl

theorem complete_append : complete (p ++ q) w = complete q (complete p w) := List.foldl_append

theorem run_append (k : ℕ) (p q : List Step) (w : World) :
    (run k (p ++ q) w).2 =
      if k < commandsOf p then (run k p w).2 else (run (k - commandsOf p) q (complete p w)).2 := by
  induction p generalizing k w with
  | nil => rfl
  | cons step p ih =>
    have hcount : commandsOf (step::p) = step.commands + commandsOf p := by simp [commandsOf]
    rw [List.cons_append,run,run,hcount]
    by_cases hfail : k < step.commands
    · rw [if_pos hfail,if_pos hfail,if_pos (by omega)]
    · rw [if_neg hfail,if_neg hfail,ih]
      by_cases hin : k - step.commands < commandsOf p
      · rw [if_pos hin,if_pos (by omega)]
      · rw [if_neg hin,if_neg (by omega),Nat.sub_sub]
        rfl

/-- Steps that change nothing where they start. -/
theorem run_idle (h : ∀ step ∈ p, step.effect w = w) : (run k p w).2 = w ∧ complete p w = w := by
  induction p generalizing k with
  | nil => exact ⟨rfl,rfl⟩
  | cons step p ih =>
    have hrest := @ih (k - step.commands) (fun other hother => h other (List.mem_cons_of_mem _ hother))
    have hstep := h step List.mem_cons_self
    constructor
    · rw [run]
      split
      · rfl
      · rw [hstep,hrest.1]
    · rw [complete,List.foldl_cons,hstep]
      exact hrest.2

/-- Commands that mount: cut off anywhere, some of what they mount is there, from the first on. -/
theorem run_mounts (h : ∀ step ∈ p, step.Mounts) :
    (∃ l, l <:+ made p ∧ (run k p w).2 = {w with mounted := l ++ w.mounted}) ∧
      complete p w = {w with mounted := made p ++ w.mounted} := by
  induction p generalizing k w with
  | nil => exact ⟨⟨[],List.suffix_rfl,rfl⟩,rfl⟩
  | cons step p ih =>
    obtain ⟨line,mounts,rfl⟩ := h step List.mem_cons_self
    have heffect : Step.effect (.command line none mounts) w = {w with mounted := mounts ++ w.mounted} := by
      simp [Step.effect]
    have hmade : made (.command line none mounts::p) = made p ++ mounts := rfl
    obtain ⟨⟨l,hl,hrun⟩,hcomplete⟩ := @ih (k - 1) {w with mounted := mounts ++ w.mounted}
      (fun other hother => h other (List.mem_cons_of_mem _ hother))
    constructor
    · rw [run,heffect]
      by_cases hfail : k < Step.commands (.command line none mounts)
      · rw [if_pos hfail]
        exact ⟨[],List.nil_suffix,rfl⟩
      · rw [if_neg hfail]
        refine ⟨l ++ mounts,?_,?_⟩
        · rw [hmade]
          obtain ⟨front,hfront⟩ := hl
          exact ⟨front,by rw [← hfront,List.append_assoc]⟩
        · rw [List.append_assoc]
          exact hrun
    · rw [complete,List.foldl_cons,heffect,hmade,List.append_assoc]
      exact hcomplete

theorem effect_chore {c : Chore} {step : Step} (h : step ∈ chore chores c) : step.effect w = w := by
  obtain ⟨line,-,rfl⟩ := List.mem_map.mp h
  simp [plain,Step.effect]

theorem effect_chores {cs : List Chore} {step : Step} (h : step ∈ cs.flatMap (chore chores)) : step.effect w = w := by
  obtain ⟨c,-,hin⟩ := List.mem_flatMap.mp h
  exact effect_chore hin

/-- A step that is none to fail comes about with the one before it. -/
theorem run_note {step : Step} (h : step.commands = 0) : run k (step::p) w = run k p (step.effect w) := by
  rw [run,h,if_neg (Nat.not_lt_zero k)]
  rfl

/-! ### What is undone -/

/-- What is mounted is what the session knows of: trees at the recorded binds, file systems at the recorded mounts with
nothing inside of them, and datasets; and the pools are the recorded ones. -/
structure Recorded (w : World) (trees single datasets : List (Mount Shown String)) : Prop where
  mounted : w.mounted = trees ++ (single ++ datasets)
  imported : w.imported = w.session.pools
  bound : ∀ m ∈ trees, ∃ place ∈ w.session.bindMounts, place <+: m.point
  tops : ∀ place ∈ w.session.bindMounts, ∃ m ∈ trees, m.point = place
  apart : ∀ place ∈ w.session.bindMounts, ∀ m ∈ single ++ datasets, ¬ place <+: m.point
  recorded : single.map Mount.point = w.session.mounts.reverse
  free : ∀ t ∈ single, ∀ m ∈ single ++ datasets, m.inside t.point = false
  kind : ∀ m ∈ datasets, m.source.isDataset = true
  order : datasets.Pairwise (fun newer older => older.inside newer.point = false)

theorem detach_eq (mounted : List (Mount Shown String)) (place : Place) :
    detach mounted place = (umountTree place mounted).getD mounted := by
  unfold detach
  split
  · next h => rw [h,Option.getD_some]
  · rfl

theorem giveUpPool_eq (mounted : List (Mount Shown String)) (imported : List String) (pool : String) :
    giveUpPool mounted imported pool = (exportPool mounted pool imported).getD imported := by
  unfold giveUpPool
  cases h : exportPool mounted pool imported with
  | some left => rfl
  | none => rfl

/-- With nothing mounted any more every pool is given up. -/
theorem foldl_giveUpPool (pools : List String) : pools.foldl (giveUpPool []) pools = [] := by
  induction pools with
  | nil => rfl
  | cons pool pools ih =>
    have hpool : giveUpPool [] (pool::pools) pool = pools := by
      rw [giveUpPool_eq]
      simp [exportPool,busy]
    rw [List.foldl_cons,hpool]
    exact ih

/-- All that is recorded is undone. -/
theorem teardown_recorded {trees single datasets : List (Mount Shown String)} (h : Recorded w trees single datasets) :
    teardown w = World.clean := by
  have hbinds : w.session.bindMounts.reverse.foldl detach w.mounted = single ++ datasets := by
    simp only [funext₂ detach_eq]
    rw [foldl_umountTree,h.mounted,List.filter_append,List.filter_eq_nil_iff.mpr,List.nil_append,List.filter_eq_self]
    · intro m hm
      refine decide_eq_true (fun place hplace => ?_)
      exact h.apart place (List.mem_reverse.mp hplace) m hm
    · intro m hm hout
      obtain ⟨place,hplace,hbelow⟩ := h.bound m hm
      exact of_decide_eq_true hout place (List.mem_reverse.mpr hplace) hbelow
    · intro place hplace _
      obtain ⟨m,hm,hpoint⟩ := h.tops place (List.mem_reverse.mp hplace)
      exact ⟨m,by rw [h.mounted]; exact List.mem_append_left _ hm,hpoint⟩
  have hmounts : w.session.mounts.reverse.foldl (fun mounted place => (umount place mounted).getD mounted)
      (single ++ datasets) = datasets := by
    rw [← h.recorded]
    exact foldl_umount h.free
  have hdatasets : umountAll Shown.isDataset datasets = [] := umountAll_eq_nil h.kind h.order
  simp only [teardown,hbinds,hmounts,hdatasets]
  rw [h.imported,foldl_giveUpPool]
  rfl

/-- What is no dataset and is recorded nowhere stays. -/
theorem mem_teardown {m : Mount Shown String} (hm : m ∈ w.mounted) (hdataset : m.source.isDataset = false)
    (hbind : ∀ place ∈ w.session.bindMounts, ¬ place <+: m.point) (hmount : m.point ∉ w.session.mounts) :
    m ∈ (teardown w).mounted := by
  refine mem_umountAll (mem_foldl_umount ?_ (fun h => hmount (List.mem_reverse.mp h))) hdataset
  simp only [funext₂ detach_eq]
  exact mem_foldl_umountTree hm (fun place hplace => hbind place (List.mem_reverse.mp hplace))

/-! ### The parts of an install -/

theorem made_append : made (p ++ q) = made q ++ made p := by
  induction p with
  | nil => rw [List.nil_append,show made [] = [] from rfl,List.append_nil]
  | cons step p ih =>
    rw [List.cons_append]
    show made (p ++ q) ++ step.mounts = made q ++ (made p ++ step.mounts)
    rw [ih,List.append_assoc]

theorem plain_mounts (line : String) : (plain line).Mounts := ⟨line,[],rfl⟩

theorem createDatasets_mounts : ∀ step ∈ createDatasets, step.Mounts := by
  simp only [createDatasets,List.forall_mem_cons]
  exact ⟨⟨_,_,rfl⟩,⟨_,_,rfl⟩,⟨_,_,rfl⟩,⟨_,_,rfl⟩,⟨_,_,rfl⟩,⟨_,_,rfl⟩,⟨_,_,rfl⟩,⟨_,_,rfl⟩,plain_mounts _,nofun⟩

theorem formatEsp_mounts (index : ℕ) : ∀ step ∈ formatEsp index, step.Mounts := by
  simp only [formatEsp,List.forall_mem_cons]
  exact ⟨plain_mounts _,plain_mounts _,⟨_,_,rfl⟩,plain_mounts _,plain_mounts _,nofun⟩

theorem formatEsps_mounts (disks : ℕ) : ∀ step ∈ formatEsps disks, step.Mounts := by
  intro step hstep
  obtain ⟨index,-,hin⟩ := List.mem_flatMap.mp hstep
  exact formatEsp_mounts index step hin

theorem bindOne_mounts (path name : String) : ∀ step ∈ bindOne submounts path name, step.Mounts := by
  simp only [bindOne,List.forall_mem_cons]
  exact ⟨plain_mounts _,⟨_,_,rfl⟩,plain_mounts _,nofun⟩

theorem bindPseudoFilesystems_mounts : ∀ step ∈ bindPseudoFilesystems submounts, step.Mounts := by
  simp only [bindPseudoFilesystems,List.forall_mem_append,List.forall_mem_cons]
  exact ⟨⟨⟨bindOne_mounts _ _,bindOne_mounts _ _⟩,bindOne_mounts _ _⟩,plain_mounts _,⟨_,_,rfl⟩,nofun⟩

theorem made_formatEsps (disks : ℕ) : made (formatEsps disks) = ((List.range disks).map espMount).reverse := by
  induction disks with
  | zero => rfl
  | succ n ih =>
    have hsucc : formatEsps (n + 1) = formatEsps n ++ formatEsp n := by simp [formatEsps,List.range_succ]
    rw [hsucc,made_append,ih,List.range_succ,List.map_append,List.reverse_append]
    rfl

theorem made_bindPseudoFilesystems : made (bindPseudoFilesystems submounts) =
    procMount::(treeMounts submounts "/run" "run" ++ (treeMounts submounts "/sys" "sys" ++
      treeMounts submounts "/dev" "dev")) := by
  have hone : ∀ path name, made (bindOne submounts path name) = treeMounts submounts path name := by
    intro path name
    show (([] ++ []) ++ treeMounts submounts path name) ++ [] = _
    simp
  rw [bindPseudoFilesystems,made_append,made_append,made_append,hone,hone,hone]
  rfl

/-- A pool is recorded as soon as it is created. -/
theorem run_pool (k : ℕ) (line pool : String) (p : List Step) (w : World) :
    (run k (.command line (some pool) []::.pushPool pool::p) w).2 = w ∨
      ∃ k', (run k (.command line (some pool) []::.pushPool pool::p) w).2 =
        (run k' p {w with imported := w.imported ++ [pool],
                          session := {w.session with pools := w.session.pools ++ [pool]}}).2 := by
  rw [run]
  by_cases hfail : k < Step.commands (.command line (some pool) [])
  · rw [if_pos hfail]
    exact .inl rfl
  · rw [if_neg hfail,run_note rfl]
    exact .inr ⟨_,rfl⟩

/-- Both pools, some mounts of their datasets, and the pools recorded. -/
def pooled (pools : List String) (l : List (Mount Shown String)) : World := ⟨l,pools,⟨[],[],pools⟩⟩

/-- What comes before the first pool does nothing on a clean machine. -/
theorem effect_first {step : Step} (h : step ∈ [.releaseExisting BPOOL,.releaseExisting RPOOL] ++
    (List.range disks).flatMap (fun disk => chore chores (.prepare disk)) ++ chore chores .settle) :
    step.effect World.clean = World.clean := by
  rw [List.mem_append,List.mem_append] at h
  obtain (h | h) | h := h
  · obtain rfl | h := List.mem_cons.mp h
    · rfl
    · obtain rfl := List.mem_singleton.mp h
      rfl
  · obtain ⟨disk,-,h⟩ := List.mem_flatMap.mp h
    exact effect_chore h
  · exact effect_chore h

theorem run_beforeEsps (chores : Chore → List String) (disks k : ℕ) : ∃ pools l, l <:+ made createDatasets ∧
    (run k (beforeEsps chores disks) World.clean).2 = pooled pools l := by
  unfold beforeEsps
  rw [List.append_assoc,List.append_assoc,List.append_assoc,List.append_assoc,run_append]
  split
  · rw [(run_idle (fun step => effect_first)).1]
    exact ⟨[],[],List.nil_suffix,rfl⟩
  · rw [(run_idle (k := 0) (fun step => effect_first)).2]
    obtain hrun | ⟨k₁,hrun⟩ := run_pool (k - commandsOf ([.releaseExisting BPOOL,.releaseExisting RPOOL] ++
      (List.range disks).flatMap (fun disk => chore chores (.prepare disk)) ++ chore chores .settle))
      "zpool create bpool" BPOOL (createRpool ++ ([.pushPool RPOOL] ++ createDatasets)) World.clean
    · exact ⟨[],[],List.nil_suffix,hrun⟩
    · obtain hrun' | ⟨k₂,hrun'⟩ := run_pool k₁ "zpool create rpool" RPOOL createDatasets (pooled [BPOOL] [])
      · exact ⟨[BPOOL],[],List.nil_suffix,hrun.trans hrun'⟩
      · obtain ⟨⟨l,hl,hdatasets⟩,-⟩ := run_mounts (k := k₂) (w := pooled [BPOOL,RPOOL] []) createDatasets_mounts
        refine ⟨[BPOOL,RPOOL],l,hl,hrun.trans (hrun'.trans (hdatasets.trans ?_))⟩
        rw [pooled,pooled,List.append_nil]

theorem complete_beforeEsps :
    complete (beforeEsps chores disks) World.clean = pooled [BPOOL,RPOOL] (made createDatasets) := by
  unfold beforeEsps
  rw [List.append_assoc,List.append_assoc,List.append_assoc,List.append_assoc,complete_append,
    (run_idle (k := 0) (fun step => effect_first)).2]
  rfl

/-! ### What an install leaves -/

theorem datasets_kind {l : List (Mount Shown String)} (hl : l <:+ made createDatasets) :
    ∀ m ∈ l, m.source.isDataset = true := by
  have hall : ∀ m ∈ made createDatasets, m.source.isDataset = true := by decide
  exact fun m hm => hall m (hl.subset hm)

theorem datasets_order {l : List (Mount Shown String)} (hl : l <:+ made createDatasets) :
    l.Pairwise (fun newer older => older.inside newer.point = false) := by
  have hall : (made createDatasets).Pairwise (fun newer older => older.inside newer.point = false) := by decide
  exact hall.sublist hl.sublist

theorem datasets_points : ∀ m ∈ made createDatasets, m.point ∈ [[],["boot"],["var","log"],["var","tmp"]] := by decide

theorem recorded_pooled {pools : List String} {l : List (Mount Shown String)} (hl : l <:+ made createDatasets) :
    Recorded (pooled pools l) [] [] l where
  mounted := rfl
  imported := rfl
  bound := nofun
  tops := nofun
  apart := nofun
  recorded := rfl
  free := nofun
  kind := datasets_kind hl
  order := datasets_order hl

/-- The ESPs, the newest first. -/
def espMounts (disks : ℕ) : List (Mount Shown String) := ((List.range disks).map espMount).reverse

theorem mem_espMounts {m : Mount Shown String} (h : m ∈ espMounts disks) : ∃ name, m.point = ["boot",name] := by
  obtain ⟨index,-,rfl⟩ := List.mem_map.mp (List.mem_reverse.mp h)
  exact ⟨_,rfl⟩

/-- What is below the target before anything is bound into it. -/
theorem unbound {m : Mount Shown String} (h : m ∈ espMounts disks ++ made createDatasets) :
    m.point.length ≤ 2 ∧ ∀ place ∈ boundPlaces, ¬ place <+: m.point := by
  have hpoint : (∃ name, m.point = ["boot",name]) ∨ m.point ∈ [[],["boot"],["var","log"],["var","tmp"]] := by
    obtain h | h := List.mem_append.mp h
    · exact .inl (mem_espMounts h)
    · exact .inr (datasets_points m h)
  obtain ⟨name,hpoint⟩ | hpoint := hpoint
  · rw [hpoint]
    refine ⟨le_rfl,?_⟩
    simp [boundPlaces]
  · revert hpoint
    generalize m.point = point
    revert point
    decide

theorem esps_free : ∀ t ∈ espMounts disks, ∀ m ∈ espMounts disks ++ made createDatasets, m.inside t.point = false := by
  intro t ht m hm
  obtain ⟨name,hname⟩ := mem_espMounts ht
  refine decide_eq_false ?_
  rintro ⟨hpre,hne⟩
  have hlength : t.point.length = 2 := by rw [hname]; rfl
  exact hne (hpre.eq_of_length_le (by rw [hlength]; exact (unbound hm).1))

/-- Pools, datasets and ESPs, and all of them recorded. -/
def mirrored (disks : ℕ) : World :=
  ⟨espMounts disks ++ made createDatasets,[BPOOL,RPOOL],⟨(List.range disks).map espMountpoint,[],[BPOOL,RPOOL]⟩⟩

theorem espMounts_points : (espMounts disks).map Mount.point = ((List.range disks).map espMountpoint).reverse := by
  rw [espMounts,List.map_reverse,List.map_map]
  rfl

theorem recorded_mirrored : Recorded (mirrored disks) [] (espMounts disks) (made createDatasets) where
  mounted := rfl
  imported := rfl
  bound := nofun
  tops := nofun
  apart := nofun
  recorded := espMounts_points
  free := esps_free
  kind := datasets_kind List.suffix_rfl
  order := datasets_order List.suffix_rfl

/-- All that an install mounts, and all of it recorded. -/
def bound (submounts : String → List Place) (disks : ℕ) : World :=
  {mirrored disks with
    mounted := made (bindPseudoFilesystems submounts) ++ (mirrored disks).mounted
    session := {(mirrored disks).session with bindMounts := boundPlaces}}

theorem recorded_bound : Recorded (bound submounts disks) (made (bindPseudoFilesystems submounts)) (espMounts disks)
    (made createDatasets) where
  mounted := rfl
  imported := rfl
  bound := by
    have htree : ∀ path name m, m ∈ treeMounts submounts path name → [name] <+: m.point := by
      intro path name m hm
      obtain hm | hm := List.mem_append.mp hm
      · obtain ⟨place,-,rfl⟩ := List.mem_map.mp hm
        exact ⟨place,rfl⟩
      · obtain rfl := List.mem_singleton.mp hm
        exact List.prefix_rfl
    intro m hm
    rw [made_bindPseudoFilesystems] at hm
    obtain rfl | hm := List.mem_cons.mp hm
    · exact ⟨["proc"],(by decide : _ ∈ boundPlaces),List.prefix_rfl⟩
    obtain hm | hm := List.mem_append.mp hm
    · exact ⟨["run"],(by decide : _ ∈ boundPlaces),htree _ _ m hm⟩
    obtain hm | hm := List.mem_append.mp hm
    · exact ⟨["sys"],(by decide : _ ∈ boundPlaces),htree _ _ m hm⟩
    · exact ⟨["dev"],(by decide : _ ∈ boundPlaces),htree _ _ m hm⟩
  tops := by
    have htree : ∀ path name, ⟨.bound path,[name]⟩ ∈ treeMounts submounts path name :=
      fun path name => List.mem_append_right _ (List.mem_singleton_self _)
    simp only [made_bindPseudoFilesystems]
    show ∀ place ∈ boundPlaces, _
    simp only [boundPlaces,List.forall_mem_cons]
    refine ⟨⟨⟨.bound "/dev",["dev"]⟩,?_,rfl⟩,⟨⟨.bound "/sys",["sys"]⟩,?_,rfl⟩,⟨⟨.bound "/run",["run"]⟩,?_,rfl⟩,
      ⟨procMount,List.mem_cons_self,rfl⟩,nofun⟩
    · exact List.mem_cons_of_mem _ (List.mem_append_right _ (List.mem_append_right _ (htree "/dev" "dev")))
    · exact List.mem_cons_of_mem _ (List.mem_append_right _ (List.mem_append_left _ (htree "/sys" "sys")))
    · exact List.mem_cons_of_mem _ (List.mem_append_left _ (htree "/run" "run"))
  apart := fun place hplace m hm => (unbound hm).2 place hplace
  recorded := espMounts_points
  free := esps_free
  kind := datasets_kind List.suffix_rfl
  order := datasets_order List.suffix_rfl

/-- The command that fails is one of `format_esps`, and an ESP is mounted already. -/
def EspUnrecorded (chores : Chore → List String) (disks k : ℕ) : Prop :=
  commandsOf (beforeEsps chores disks) + 3 ≤ k ∧ k < commandsOf (beforeEsps chores disks ++ formatEsps disks)

/-- All that comes before the binds. -/
def beforeBinds (chores : Chore → List String) (disks : ℕ) : List Step :=
  beforeEsps chores disks ++ formatEsps disks ++ afterEsps chores disks

/-- The command that fails is one of `bind_pseudo_filesystems`, and a tree is bound already. -/
def BindUnrecorded (chores : Chore → List String) (submounts : String → List Place) (disks k : ℕ) : Prop :=
  commandsOf (beforeBinds chores disks) + 2 ≤ k ∧
    k < commandsOf (beforeBinds chores disks ++ bindPseudoFilesystems submounts)

/-- The ESPs as they are after `format_esps`, not yet recorded. -/
def unrecorded (disks : ℕ) : World := pooled [BPOOL,RPOOL] (espMounts disks ++ made createDatasets)

theorem run_afterEsps (k : ℕ) : (run k (afterEsps chores disks) (unrecorded disks)).2 = mirrored disks ∧
    complete (afterEsps chores disks) (unrecorded disks) = mirrored disks := by
  have hcount : commandsOf ((List.range disks).map (fun index => .pushMount (espMountpoint index))) = 0 := by
    simp [commandsOf,Step.commands,Function.comp_def]
  have hpush : ∀ (places : List ℕ) (w : World),
      complete (places.map (fun index => .pushMount (espMountpoint index))) w =
        {w with session := {w.session with mounts := w.session.mounts ++ places.map espMountpoint}} := by
    intro places
    induction places with
    | nil =>
      intro w
      simp [complete]
    | cons index places ih =>
      intro w
      rw [List.map_cons,complete,List.foldl_cons]
      refine (ih _).trans ?_
      simp [Step.effect]
  have hmirrored : complete ((List.range disks).map (fun index => .pushMount (espMountpoint index))) (unrecorded disks) =
      mirrored disks := hpush _ _
  unfold afterEsps
  rw [run_append,complete_append,hcount,if_neg (Nat.not_lt_zero k),hmirrored]
  exact run_idle (fun step => effect_chores)

theorem run_afterBinds (k : ℕ) : (run k (afterBinds chores disks)
    {mirrored disks with mounted := made (bindPseudoFilesystems submounts) ++ (mirrored disks).mounted}).2 =
      bound submounts disks := by
  unfold afterBinds
  rw [run_note rfl]
  exact (run_idle (fun step => effect_chores)).1

/-- What an install leaves, by the part in which it ends. -/
theorem install_world (chores : Chore → List String) (submounts : String → List Place) (disks k : ℕ) :
    (install chores submounts disks k).2 =
      let a := commandsOf (beforeEsps chores disks)
      let b := commandsOf (formatEsps disks)
      let c := commandsOf (afterEsps chores disks)
      let d := commandsOf (bindPseudoFilesystems submounts)
      if k < a then (run k (beforeEsps chores disks) World.clean).2
      else if k - a < b then (run (k - a) (formatEsps disks) (pooled [BPOOL,RPOOL] (made createDatasets))).2
      else if k - a - b < c then mirrored disks
      else if k - a - b - c < d then
        (run (k - a - b - c) (bindPseudoFilesystems submounts) (mirrored disks)).2
      else bound submounts disks := by
  have hesps : complete (formatEsps disks) (pooled [BPOOL,RPOOL] (made createDatasets)) = unrecorded disks := by
    rw [(run_mounts (k := 0) (formatEsps_mounts disks)).2,made_formatEsps]
    rfl
  have hbinds := (run_mounts (k := 0) (w := mirrored disks) (@bindPseudoFilesystems_mounts submounts)).2
  rw [install,installSteps,run_append,run_append,run_append,run_append,complete_beforeEsps,hesps,
    (run_afterEsps _).1,(run_afterEsps 0).2,hbinds,run_afterBinds]

theorem espUnrecorded_iff : EspUnrecorded chores disks k ↔
    commandsOf (beforeEsps chores disks) + 3 ≤ k ∧
      k - commandsOf (beforeEsps chores disks) < commandsOf (formatEsps disks) := by
  rw [EspUnrecorded,commandsOf_append]
  omega

theorem bindUnrecorded_iff : BindUnrecorded chores submounts disks k ↔
    commandsOf (beforeBinds chores disks) + 2 ≤ k ∧
      k - commandsOf (beforeBinds chores disks) < commandsOf (bindPseudoFilesystems submounts) := by
  rw [BindUnrecorded,commandsOf_append]
  omega

/-- Up to the first command that mounts nothing changes, and from then on what it has mounted is there. -/
theorem run_cut {line : String} {mounts : List (Mount Shown String)} {m : Mount Shown String} {n : ℕ} (k : ℕ) (w : World)
    (hcount : commandsOf p = n) (hidle : ∀ step ∈ p, step.effect w = w) (hmounts : ∀ step ∈ q, step.Mounts) :
    if k ≤ n then (run k (p ++ .command line none (mounts ++ [m])::q) w).2 = w
    else ∃ l, (run k (p ++ .command line none (mounts ++ [m])::q) w).2 = {w with mounted := l ++ m::w.mounted} := by
  have hone : Step.commands (.command line none (mounts ++ [m])) = 1 := rfl
  rw [run_append,(run_idle (k := k) hidle).1,(run_idle (k := k) hidle).2,run,hcount,hone]
  by_cases hcut : k ≤ n
  · rw [if_pos hcut]
    by_cases hin : k < n
    · rw [if_pos hin]
    · rw [if_neg hin,if_pos (show k - n < 1 by omega)]
  · rw [if_neg hcut,if_neg (by omega),if_neg (show ¬ k - n < 1 by omega)]
    obtain ⟨⟨l,-,hrun⟩,-⟩ := run_mounts (k := k - n - 1) (w := {w with mounted := (mounts ++ [m]) ++ w.mounted}) hmounts
    have heffect : Step.effect (.command line none (mounts ++ [m])) w =
        {w with mounted := (mounts ++ [m]) ++ w.mounted} := by
      simp [Step.effect]
    refine ⟨l ++ mounts,?_⟩
    rw [heffect]
    refine hrun.trans ?_
    simp

/-- In `format_esps`: from the first mount on there is an ESP that is not recorded. -/
theorem run_formatEsps (k : ℕ) (w : World) (h : k < commandsOf (formatEsps disks)) :
    if k ≤ 2 then (run k (formatEsps disks) w).2 = w
    else ∃ l, (run k (formatEsps disks) w).2 = {w with mounted := l ++ espMount 0::w.mounted} := by
  cases disks with
  | zero => exact absurd h (Nat.not_lt_zero k)
  | succ n =>
    have hsteps : formatEsps (n + 1) = [plain ("mkfs.vfat NSEFI" ++ toString 0),plain "create_dir_all"] ++
        .command "mount" none ([] ++ [espMount 0])::
          ([plain "blkid",plain "blkid reported no UUID"] ++ (List.range' 1 n).flatMap formatEsp) := by
      rw [formatEsps,List.range_eq_range',List.range'_succ]
      rfl
    rw [hsteps]
    refine run_cut k w rfl ?_ ?_
    · simp [plain,Step.effect]
    · simp only [List.forall_mem_append,List.forall_mem_cons]
      refine ⟨⟨plain_mounts _,plain_mounts _,nofun⟩,fun step hstep => ?_⟩
      obtain ⟨index,-,hin⟩ := List.mem_flatMap.mp hstep
      exact formatEsp_mounts index step hin

/-- In `bind_pseudo_filesystems`: from the first bind on there is a tree that is not recorded. -/
theorem run_bindPseudoFilesystems (submounts : String → List Place) (k : ℕ) (w : World) :
    if k ≤ 1 then (run k (bindPseudoFilesystems submounts) w).2 = w
    else ∃ l, (run k (bindPseudoFilesystems submounts) w).2 =
      {w with mounted := l ++ ⟨.bound "/dev",["dev"]⟩::w.mounted} := by
  have hsteps : bindPseudoFilesystems submounts = [plain "create_dir_all"] ++
      .command "mount --rbind" none ((submounts "/dev").map (fun place => ⟨.bound "/dev","dev"::place⟩) ++
        [⟨.bound "/dev",["dev"]⟩])::
        ([plain "mount --make-rslave"] ++ (bindOne submounts "/sys" "sys" ++ (bindOne submounts "/run" "run" ++
          [plain "create_dir_all",.command "mount -t proc" none [procMount]]))) := rfl
  rw [hsteps]
  refine run_cut k w rfl ?_ ?_
  · simp [plain,Step.effect]
  · simp only [List.forall_mem_append,List.forall_mem_cons]
    exact ⟨⟨plain_mounts _,nofun⟩,bindOne_mounts _ _,bindOne_mounts _ _,plain_mounts _,⟨_,_,rfl⟩,nofun⟩

/-- Everything is given back exactly when the install does not fail between a mount and the end of the function that
makes it. -/
theorem teardown_clean_iff (chores : Chore → List String) (submounts : String → List Place) (disks k : ℕ) :
    teardown (install chores submounts disks k).2 = World.clean ↔
      ¬EspUnrecorded chores disks k ∧ ¬BindUnrecorded chores submounts disks k := by
  rw [espUnrecorded_iff,bindUnrecorded_iff,beforeBinds,commandsOf_append,commandsOf_append,install_world]
  have hesp : (espMount 0).source.isDataset = false := rfl
  dsimp only
  split
  · next ha =>
    obtain ⟨pools,l,hl,hrun⟩ := run_beforeEsps chores disks k
    rw [hrun,teardown_recorded (recorded_pooled hl)]
    exact iff_of_true rfl ⟨by omega,by omega⟩
  · split
    · next ha hb =>
      have hcases := run_formatEsps _ (pooled [BPOOL,RPOOL] (made createDatasets)) hb
      split at hcases
      · next hbefore =>
        rw [hcases,teardown_recorded (recorded_pooled List.suffix_rfl)]
        exact iff_of_true rfl ⟨by omega,by omega⟩
      · next hafter =>
        obtain ⟨l,hrun⟩ := hcases
        refine iff_of_false (fun hclean => ?_) (fun h => h.1 ⟨by omega,hb⟩)
        have hstays := mem_teardown (w := {pooled [BPOOL,RPOOL] (made createDatasets) with
          mounted := l ++ espMount 0::made createDatasets}) (m := espMount 0) (by simp) rfl nofun nofun
        rw [hrun] at hclean
        exact List.not_mem_nil (congrArg World.mounted hclean ▸ hstays)
    · split
      · next ha hb hc =>
        rw [teardown_recorded recorded_mirrored]
        exact iff_of_true rfl ⟨by omega,by omega⟩
      · split
        · next ha hb hc hd =>
          have hcases := run_bindPseudoFilesystems submounts (k - commandsOf (beforeEsps chores disks) -
            commandsOf (formatEsps disks) - commandsOf (afterEsps chores disks)) (mirrored disks)
          split at hcases
          · next hbefore =>
            rw [hcases,teardown_recorded recorded_mirrored]
            exact iff_of_true rfl ⟨by omega,by omega⟩
          · next hafter =>
            obtain ⟨l,hrun⟩ := hcases
            refine iff_of_false (fun hclean => ?_) (fun h => h.2 ⟨by omega,by omega⟩)
            have hpoint : (["dev"] : Place) ∉ (mirrored disks).session.mounts := by
              intro hmem
              obtain ⟨index,-,hindex⟩ := List.mem_map.mp hmem
              exact absurd (List.cons.inj hindex).1 (by decide)
            have hstays := mem_teardown (w := {mirrored disks with
              mounted := l ++ ⟨.bound "/dev",["dev"]⟩::(mirrored disks).mounted}) (m := ⟨.bound "/dev",["dev"]⟩)
              (by simp) rfl nofun hpoint
            rw [hrun] at hclean
            exact List.not_mem_nil (congrArg World.mounted hclean ▸ hstays)
        · next ha hb hc hd =>
          rw [teardown_recorded recorded_bound]
          exact iff_of_true rfl ⟨by omega,by omega⟩

/-- The ESP of the only disk is mounted, and then `blkid` fails. -/
def blkidFails : ℕ := commandsOf (beforeEsps (fun _ => []) 1) + 3

/-- The ESP stays mounted, and with it the datasets it is mounted in and both pools. -/
theorem esp_left_mounted :
    (install (fun _ => []) (fun _ => []) 1 blkidFails).1 = .error "blkid" ∧
      (teardown (install (fun _ => []) (fun _ => []) 1 blkidFails).2).mounted.map Mount.point =
        [["boot","efi"],["boot"],[]] ∧
      (teardown (install (fun _ => []) (fun _ => []) 1 blkidFails).2).imported = ["bpool","rpool"] := by
  decide +kernel

end Nightshade.Installer
