import HoneNode.Lib.Search
import HoneNode.LinkGit.Pack
import HoneNode.LinkGit.Requests
import HoneNode.LinkGit.Server

/-!
# LinkGit.Fetch — what a fetch is sent

A fetch names objects that it wants and objects that it has. What is sent is found from the
first ones over commits and trees, without the second ones. The request has the lines for
both, but a flush stands between them, and the reader stops there.

1. **What is collected** (`collectReachable_exact`): the search of `Lib.Search` over the
   object store.
2. **What is read of a request** (`passesAll_iff`).
-/

namespace HoneNode.LinkGit

/-! ## Commits and trees -/

/-- `str::lines`: a carriage return goes with its newline, and a last line may be without. -/
def textLines (s : String) : List String :=
  let pieces := Text.splitChars '\n' s.toList
  let ended := pieces.dropLast.map fun l => if l.getLast? = some '\r' then l.dropLast else l
  let last := pieces.getLast?.filter (· ≠ [])
  (ended ++ last.toList).map String.ofList

/-- Up to the first empty line; of two trees the last one counts. -/
def commitLines : List String → String → List String → String × List String
  | [], tree, parents => (tree, parents)
  | line :: rest, tree, parents =>
    if hasPrefix "tree " line then
      commitLines rest (trim (dropPrefix "tree " line)) parents
    else if hasPrefix "parent " line then
      commitLines rest tree (parents ++ [trim (dropPrefix "parent " line)])
    else if line = "" then (tree, parents)
    else commitLines rest tree parents

/-- The tree and the parents of a commit; bytes that are no text have neither. -/
def parseCommit (data : Bytes) : String × List String :=
  commitLines (textLines ((Text.fromUtf8 data).getD "")) "" []

/-- Mode and name up to a NUL, then twenty bytes of hash; what is cut off is passed over. -/
def parseTree (data : Bytes) : List String :=
  match _hnul : data.dropWhile (· ≠ 0) with
  | [] => []
  | _ :: rest =>
    if rest.length < 20 then []
    else hexEncode (rest.take 20) :: parseTree (rest.drop 20)
termination_by data.length
decreasing_by
  have hle : (data.dropWhile (· ≠ 0)).length ≤ data.length := (List.dropWhile_sublist _).length_le
  rw [_hnul, List.length_cons] at hle
  rw [List.length_drop]
  omega

/-- What an object refers to. -/
def pointsTo (o : UInt8 × Bytes) : List String :=
  if o.1 = objCommit then (parseCommit o.2).1 :: (parseCommit o.2).2
  else if o.1 = objTree then parseTree o.2
  else []

/-! ## What is collected -/

/-- An object of the repository; a value without a type is none. -/
def gitObject (objects : GitObjects) (repoId sha : String) : Option (UInt8 × Bytes) :=
  match objects.gitObjectGet repoId sha with
  | none => none
  | some [] => none
  | some (t :: d) => some (t, d)

/-- The names of the keys that begin with the id of the repository. -/
def storedNames (objects : GitObjects) (repoId : String) : Finset String :=
  ((objects.bindings.filter fun b => hasPrefix (repoId ++ "\x00") b.1).map fun b =>
    dropPrefix (repoId ++ "\x00") b.1).toFinset

theorem mem_storedNames {objects : GitObjects} {repoId sha : String}
    (h : (gitObject objects repoId sha).isSome) : sha ∈ storedNames objects repoId := by
  have hget : ∃ raw, objects.get (objectKey repoId sha) = some raw := by
    unfold gitObject GitObjects.gitObjectGet at h
    split at h
    · cases h
    · cases h
    · next hraw => exact ⟨_, hraw⟩
  obtain ⟨raw, hraw⟩ := hget
  rw [storedNames, List.mem_toFinset, List.mem_map]
  refine ⟨(objectKey repoId sha, raw), List.mem_filter.2 ⟨?_, ?_⟩, ?_⟩
  · exact (Kv.lookup_eq_some_iff objects.sorted).1 hraw
  · exact Text.hasPrefix_append (repoId ++ "\x00") sha
  · exact Text.dropPrefix_append (repoId ++ "\x00") sha

/-- The objects of a repository and what they refer to. -/
def objectGraph (objects : GitObjects) (repoId : String) : Search.Graph String (UInt8 × Bytes) where
  node := gitObject objects repoId
  next := pointsTo
  support := storedNames objects repoId
  mem_support := mem_storedNames

/-- The queue begins with what is wanted, and what the client has counts as visited. -/
def collectReachable (objects : GitObjects) (repoId : String) (wantShas : List String)
    (haveShas : Finset String) : List (UInt8 × Bytes) :=
  (Search.search (objectGraph objects repoId) haveShas wantShas).map Prod.snd

/-- Each stored object that can be reached and that the client has not, once, and no other. -/
def SendsMissing (objects : GitObjects) (repoId : String) (wantShas : List String)
    (haveShas : Finset String) : Prop :=
  ∃ shas : List String, shas.Nodup ∧
    (collectReachable objects repoId wantShas haveShas).map some =
      shas.map (gitObject objects repoId) ∧
    ∀ sha, sha ∈ shas ↔ (gitObject objects repoId sha).isSome ∧ sha ∉ haveShas ∧
      Search.ReachedFrom (objectGraph objects repoId) wantShas sha

theorem collectReachable_exact {objects : GitObjects} {repoId : String} {haveShas : Finset String}
    (hclosed : Search.Closed (objectGraph objects repoId) haveShas) (wantShas : List String) :
    SendsMissing objects repoId wantShas haveShas := by
  refine ⟨(Search.search (objectGraph objects repoId) haveShas wantShas).map Prod.fst,
    Search.nodup_keys, ?_, fun sha => ?_⟩
  · rw [collectReachable, List.map_map, List.map_map]
    exact List.map_congr_left fun e he => (Search.sound he).1.symm
  · rw [List.mem_map]
    constructor
    · rintro ⟨e, he, rfl⟩
      obtain ⟨hnode, hnew, hway⟩ := Search.sound he
      exact ⟨Option.isSome_iff_exists.2 ⟨e.2, hnode⟩, hnew, hway⟩
    · rintro ⟨hnode, hnew, hway⟩
      obtain ⟨o, ho⟩ := Option.isSome_iff_exists.1 hnode
      exact ⟨(sha, o), (Search.mem_search_iff hclosed).2 ⟨ho, hnew, hway⟩, rfl⟩

/-! ## Requests -/

structure UploadArgs where
  wants : List String
  haves : Finset String

/-- The text up to the first blank. -/
def firstWord (s : String) : String :=
  String.ofList ((s.toList.dropWhile Text.isSpace).takeWhile fun c => !Text.isSpace c)

def readArg (args : UploadArgs) (line : Bytes) : UploadArgs :=
  let s := lineText line
  if hasPrefix "want " s then
    let sha := firstWord (dropPrefix "want " s)
    if sha = "" then args else { args with wants := args.wants ++ [sha] }
  else if hasPrefix "have " s then
    { args with haves := insert (trim (dropPrefix "have " s)) args.haves }
  else args

def uploadArgs (request : Bytes) : UploadArgs :=
  (PktReader.new request).lines.1.foldl readArg ⟨[], ∅⟩

/-- The objects of the repository that the request is answered with. -/
def uploadObjects (lib : GitLibs) (objects : GitObjects) (request : Bytes) (repoId : String) :
    Bytes :=
  let args := uploadArgs request
  pktLine (Text.bytes "NAK\n") ++
    buildPack lib (collectReachable objects repoId args.wants args.haves)

def handleUploadPack (lib : GitLibs) (objects : GitObjects) (s : Chain) (owner repoName : String)
    (request : Bytes) (auth : Option String) : GitReply :=
  uploadPack (uploadObjects lib objects request) s owner repoName auth

/-- A hash in hex. -/
def IsObjectId (sha : String) : Prop := ∃ bs : Bytes, bs.length = 20 ∧ sha = hexEncode bs

/-- The words that the other lines of a request begin with. -/
def optionWords : List String := ["shallow ", "deepen ", "deepen-since ", "deepen-not ", "filter "]

def wantLine (sha capabilities : String) : String :=
  "want " ++ sha ++ ((if capabilities = "" then "" else " " ++ capabilities) ++ "\n")

/-- The lines in front of the first flush: what is wanted, with the capabilities behind the
first, and options. -/
def uploadHead (want capabilities : String) (wants options : List String) : List String :=
  wantLine want capabilities :: (wants.map (wantLine · "") ++ options.map (· ++ "\n"))

/-- A request in the format of the protocol: its head; a flush; then rounds of what the client
has, each with a flush, and a line that ends them if it does not wait for an answer. -/
structure UploadRequest where
  want : String
  capabilities : String
  wants : List String
  options : List String
  haves : List (List String)
  done : Bool
  ids : ∀ sha ∈ want :: wants ++ haves.flatten, IsObjectId sha
  words : ∀ line ∈ options, ∃ word ∈ optionWords, hasPrefix word line = true
  short : ∀ line ∈ uploadHead want capabilities wants options, (Text.bytes line).length ≤ 65531

namespace UploadRequest

variable (req : UploadRequest)

def head : List String := uploadHead req.want req.capabilities req.wants req.options

def tail : Bytes :=
  (req.haves.flatMap fun batch =>
    (batch.map fun sha => Text.bytes ("have " ++ sha ++ "\n")).flatMap pktLine ++ pktFlush) ++
    if req.done then pktLine (Text.bytes "done\n") else []

def bytes : Bytes := (req.head.map Text.bytes).flatMap pktLine ++ pktFlush ++ req.tail

/-- What is wanted and what the client has both get to the search. -/
def PassesAll : Prop :=
  uploadArgs req.bytes = ⟨req.want :: req.wants, req.haves.flatten.toFinset⟩

end UploadRequest

/-! ## What is read of a request -/

section Lines

variable {x z sha capabilities : String} {line : String} {args : UploadArgs}

theorem rdropWhile_append {α : Type*} {p : α → Bool} {l : List α} (hl : l ≠ [])
    (hlast : ¬p (l.getLast hl)) (m : List α) :
    (l ++ m).rdropWhile p = l ++ m.rdropWhile p := by
  induction m using List.reverseRecOn with
  | nil =>
    rw [List.append_nil, List.rdropWhile_nil, List.append_nil]
    exact List.rdropWhile_eq_self_iff.2 fun _ => hlast
  | append_singleton m c ih =>
    rw [← List.append_assoc]
    by_cases hc : p c
    · rw [List.rdropWhile_concat_pos _ _ _ hc, List.rdropWhile_concat_pos _ _ _ hc, ih]
    · rw [List.rdropWhile_concat_neg _ _ _ hc, List.rdropWhile_concat_neg _ _ _ hc,
        List.append_assoc]

theorem toList_lineText (s : String) : (lineText (Text.bytes s)).toList =
    (s.toList.rdropWhile (· = '\n')).takeWhile (· ≠ '\x00') := by
  rw [lineText, Text.fromUtf8Lossy_bytes, String.toList_ofList]

/-- The beginning of a line is read as it is, if it has no NUL and does not end in a newline. -/
theorem lineText_append (hx : x.toList ≠ []) (hlast : x.toList.getLast hx ≠ '\n')
    (hnul : '\x00' ∉ x.toList) :
    ∃ y, lineText (Text.bytes (x ++ (z ++ "\n"))) = x ++ y ∧ y.toList <+: z.toList := by
  refine ⟨String.ofList ((z.toList.rdropWhile (· = '\n')).takeWhile (· ≠ '\x00')), ?_, ?_⟩
  · have hnewline : (x ++ (z ++ "\n")).toList = x.toList ++ (z.toList ++ ['\n']) := by
      rw [String.toList_append, String.toList_append]
      rfl
    rw [← String.toList_inj, toList_lineText, hnewline,
      rdropWhile_append hx (by simpa using hlast), List.rdropWhile_concat_pos _ _ _ (by simp),
      List.takeWhile_append_of_pos, String.toList_append, String.toList_ofList]
    intro c hc
    simp only [ne_eq, decide_not, Bool.not_eq_true', decide_eq_false_iff_not]
    rintro rfl
    exact hnul hc
  · rw [String.toList_ofList]
    exact (List.takeWhile_prefix _).trans (List.rdropWhile_prefix _ _)

theorem mem_toList_hexEncode {c : Char} {bs : Bytes} (h : c ∈ (hexEncode bs).toList) :
    c ≠ '\x00' ∧ c ≠ '\n' ∧ Text.isSpace c = false := by
  rw [hexEncode, String.toList_ofList] at h
  obtain ⟨b, -, hb⟩ := List.mem_flatMap.1 h
  have hall : ∀ i : Fin 16, Text.hexDigit i ≠ '\x00' ∧ Text.hexDigit i ≠ '\n' ∧
      Text.isSpace (Text.hexDigit i) = false := by decide
  have hlt : b.toNat < 256 := b.toNat_lt
  rcases List.mem_cons.1 hb with rfl | hb
  · exact hall ⟨b.toNat / 16, by omega⟩
  · rw [List.mem_singleton.1 hb]
    exact hall ⟨b.toNat % 16, by omega⟩

/-- A hash is not empty and has neither blanks nor newlines nor a NUL in it. -/
theorem IsObjectId.clean (h : IsObjectId sha) : sha.toList ≠ [] ∧
    ∀ c ∈ sha.toList, c ≠ '\x00' ∧ c ≠ '\n' ∧ Text.isSpace c = false := by
  obtain ⟨bs, hlength, rfl⟩ := h
  refine ⟨?_, fun c hc => mem_toList_hexEncode hc⟩
  cases bs with
  | nil => cases hlength
  | cons b bs =>
    rw [hexEncode, String.toList_ofList]
    exact List.cons_ne_nil _ _

/-- A hash in front of a blank, or of nothing, is the first word. -/
theorem firstWord_append {y : String} (h : IsObjectId sha)
    (hy : y.toList = [] ∨ ∃ t, y.toList = ' ' :: t) : firstWord (sha ++ y) = sha := by
  obtain ⟨hne, hclean⟩ := h.clean
  have hdrop : (sha.toList ++ y.toList).dropWhile Text.isSpace = sha.toList ++ y.toList := by
    cases hchars : sha.toList with
    | nil => exact absurd hchars hne
    | cons c cs =>
      have hc := (hclean c (hchars ▸ List.mem_cons_self)).2.2
      rw [List.cons_append, List.dropWhile_cons_of_neg (by rw [hc]; exact Bool.false_ne_true)]
  have hstop : y.toList.takeWhile (fun c => !Text.isSpace c) = [] := by
    rcases hy with hy | ⟨t, hy⟩
    · rw [hy, List.takeWhile_nil]
    · rw [hy]
      exact List.takeWhile_cons_of_neg (by decide)
  rw [firstWord, String.toList_append, hdrop, List.takeWhile_append_of_pos, hstop,
    List.append_nil, String.ofList_toList]
  intro c hc
  rw [(hclean c hc).2.2]
  rfl

theorem readArg_want (h : IsObjectId sha) :
    readArg args (Text.bytes (wantLine sha capabilities)) =
      { args with wants := args.wants ++ [sha] } := by
  obtain ⟨hne, hclean⟩ := h.clean
  have hchars : ("want " ++ sha).toList = "want ".toList ++ sha.toList := String.toList_append
  have hx : ("want " ++ sha).toList ≠ [] := by
    rw [hchars]
    exact List.append_ne_nil_of_right_ne_nil _ hne
  have hlast : ("want " ++ sha).toList.getLast hx ≠ '\n' := by
    simp only [hchars, List.getLast_append_of_ne_nil _ hne]
    exact (hclean _ (List.getLast_mem hne)).2.1
  have hnul : '\x00' ∉ ("want " ++ sha).toList := by
    rw [hchars, List.mem_append, not_or]
    exact ⟨by decide, fun hmem => (hclean _ hmem).1 rfl⟩
  obtain ⟨y, hline, hy⟩ := lineText_append
    (z := if capabilities = "" then "" else " " ++ capabilities) hx hlast hnul
  have hblank : y.toList = [] ∨ ∃ t, y.toList = ' ' :: t := by
    cases hyl : y.toList with
    | nil => exact .inl rfl
    | cons c t =>
      rw [hyl] at hy
      split at hy
      · exact absurd (List.prefix_nil.1 hy) (List.cons_ne_nil c t)
      · have hblank : (" " ++ capabilities).toList = ' ' :: capabilities.toList :=
          String.toList_append
        rw [hblank, List.cons_prefix_cons] at hy
        exact .inr ⟨t, by rw [hy.1]⟩
  have hne' : sha ≠ "" := by
    rintro rfl
    exact hne rfl
  have hline : lineText (Text.bytes (wantLine sha capabilities)) = "want " ++ (sha ++ y) :=
    hline.trans (String.append_assoc)
  rw [readArg]
  dsimp only
  rw [hline, if_pos (Text.hasPrefix_append _ _), Text.dropPrefix_append,
    firstWord_append h hblank, if_neg hne']

/-- Lines with another word in front are passed over. -/
theorem readArg_option (hline : ∃ word ∈ optionWords, hasPrefix word line = true) :
    readArg args (Text.bytes (line ++ "\n")) = args := by
  obtain ⟨word, hword, hprefix⟩ := hline
  have hother : ∀ {arg : String}, (arg = "want " ∨ arg = "have ") →
      hasPrefix arg (lineText (Text.bytes (line ++ "\n"))) = false := by
    intro arg harg
    by_contra h
    rw [Bool.not_eq_false] at h
    have hread := List.isPrefixOf_iff_prefix.1 h
    rw [toList_lineText] at hread
    have hfront := (hread.trans (List.takeWhile_prefix _)).trans (List.rdropWhile_prefix _ _)
    rw [String.toList_append] at hfront
    have hsent : word.toList <+: line.toList ++ "\n".toList :=
      (List.isPrefixOf_iff_prefix.1 hprefix).trans (List.prefix_append _ _)
    obtain ⟨t, ht⟩ := hfront
    obtain ⟨t', ht'⟩ := hsent
    have hfirst := congrArg List.head? (ht.trans ht'.symm)
    rcases harg with rfl | rfl <;>
      simp only [optionWords, List.mem_cons, List.not_mem_nil, or_false] at hword <;>
      rcases hword with rfl | rfl | rfl | rfl | rfl <;>
      exact absurd (Option.some.inj hfirst) (by decide)
  rw [readArg]
  dsimp only
  rw [hother (.inl rfl), hother (.inr rfl)]
  rfl

end Lines

section Reading

variable {args : UploadArgs} {lines : List String}

theorem foldl_wants (h : ∀ sha ∈ lines, IsObjectId sha) :
    ((lines.map (wantLine · "")).map Text.bytes).foldl readArg args =
      { args with wants := args.wants ++ lines } := by
  induction lines generalizing args with
  | nil => rw [List.append_nil]; rfl
  | cons sha lines ih =>
    obtain ⟨hsha, hrest⟩ := List.forall_mem_cons.1 h
    rw [List.map_cons, List.map_cons, List.foldl_cons, readArg_want hsha, ih hrest,
      List.append_assoc, List.singleton_append]

theorem foldl_options
    (h : ∀ line ∈ lines, ∃ word ∈ optionWords, hasPrefix word line = true) :
    ((lines.map (· ++ "\n")).map Text.bytes).foldl readArg args = args := by
  induction lines generalizing args with
  | nil => rfl
  | cons line lines ih =>
    obtain ⟨hline, hrest⟩ := List.forall_mem_cons.1 h
    rw [List.map_cons, List.map_cons, List.foldl_cons, readArg_option hline, ih hrest]

/-- What is wanted is read, and nothing of what the client has. -/
theorem uploadArgs_bytes (req : UploadRequest) :
    uploadArgs req.bytes = ⟨req.want :: req.wants, ∅⟩ := by
  have hshort : ∀ d ∈ req.head.map Text.bytes, d.length ≤ 65531 := by
    intro d hd
    obtain ⟨line, hline, rfl⟩ := List.mem_map.1 hd
    exact req.short line hline
  obtain ⟨hlines, -⟩ := @lines_sent (PktReader.new req.bytes) req.tail _ hshort rfl
  have hwant : IsObjectId req.want :=
    req.ids _ (List.mem_append_left _ List.mem_cons_self)
  have hwants : ∀ sha ∈ req.wants, IsObjectId sha := fun sha hsha =>
    req.ids sha (List.mem_append_left _ (List.mem_cons_of_mem _ hsha))
  rw [uploadArgs, hlines, UploadRequest.head, uploadHead, List.map_cons, List.foldl_cons,
    readArg_want hwant, List.map_append, List.foldl_append, foldl_wants hwants,
    foldl_options req.words]
  rfl

theorem passesAll_iff (req : UploadRequest) : req.PassesAll ↔ req.haves.flatten = [] := by
  rw [UploadRequest.PassesAll, uploadArgs_bytes]
  constructor
  · intro h
    have hnone := congrArg UploadArgs.haves h
    exact List.toFinset_eq_empty_iff _ |>.1 hnone.symm
  · intro h
    rw [h]
    rfl

/-- What is missing is collected, and a request is passed on whole if it does not say what the
client has. -/
theorem fetch_sends_missing (objects : GitObjects) (repoId : String) (wantShas : List String)
    (haveShas : Finset String) (req : UploadRequest) :
    (Search.Closed (objectGraph objects repoId) haveShas →
      SendsMissing objects repoId wantShas haveShas) ∧
    (req.PassesAll ↔ req.haves.flatten = []) :=
  ⟨fun hclosed => collectReachable_exact hclosed wantShas, passesAll_iff req⟩

end Reading

/-! ### A sample -/

section Sample

def firstFile : Bytes :=
  [86, 38, 171, 240, 247, 46, 88, 215, 161, 83, 54, 139, 165, 125, 180, 198, 115, 192, 225, 113]

def secondFile : Bytes :=
  [247, 25, 239, 212, 48, 213, 43, 207, 200, 86, 106, 67, 178, 235, 101, 86, 136, 211, 136, 113]

def firstTree : Bytes :=
  [177, 234, 37, 53, 9, 198, 0, 72, 23, 248, 60, 215, 101, 154, 180, 230, 195, 139, 41, 129]

def secondTree : Bytes :=
  [40, 11, 211, 67, 172, 211, 185, 158, 111, 54, 145, 16, 40, 51, 41, 184, 195, 197, 190, 36]

def sampleHave : String := hexEncode
  [240, 53, 132, 74, 239, 9, 177, 244, 172, 235, 203, 81, 207, 58, 16, 25, 225, 177, 239, 184]

def sampleWant : String := hexEncode
  [86, 170, 207, 146, 77, 141, 185, 237, 74, 74, 74, 166, 98, 163, 72, 15, 33, 196, 48, 238]

/-- The text of a commit, and the file `name` of a tree. -/
def commitText (parents : List String) (tree : Bytes) (subject : String) : String :=
  "tree " ++ hexEncode tree ++ "\n" ++ String.join (parents.map ("parent " ++ · ++ "\n")) ++
    "author a <a> 0 +0000\ncommitter a <a> 0 +0000\n\n" ++ subject ++ "\n"

def treeFile (name : String) (file : Bytes) : Bytes :=
  Text.bytes ("100644 " ++ name) ++ 0 :: file

/-- One object is wanted; what the client has is sent behind the flush. -/
def sampleFetch (haves : List (List String)) (h : ∀ sha ∈ haves.flatten, IsObjectId sha) :
    UploadRequest where
  want := sampleWant
  capabilities := ""
  wants := []
  options := []
  haves := haves
  done := true
  ids := by
    intro sha hsha
    rcases List.mem_cons.1 hsha with rfl | hsha
    · exact ⟨_, rfl, rfl⟩
    · exact h sha hsha
  words := nofun
  short := by
    intro line hline
    rw [List.mem_singleton.1 hline]
    decide +kernel

/-- A commit with one file, and its child with two. -/
def sampleObjects : GitObjects :=
  let first := commitText [] firstTree "first"
  let second := commitText [sampleHave] secondTree "second"
  [(firstFile, objBlob, Text.bytes "one\n"), (secondFile, objBlob, Text.bytes "two\n"),
    (firstTree, objTree, treeFile "a" firstFile),
    (secondTree, objTree, treeFile "a" firstFile ++ treeFile "b" secondFile)].foldl
    (fun objects o => objects.gitObjectPut "repo" (hexEncode o.1) o.2.1 o.2.2)
    ((GitObjects.gitObjectPut ∅ "repo" sampleHave objCommit (Text.bytes first)).gitObjectPut
      "repo" sampleWant objCommit (Text.bytes second))

/-- What a client has that has fetched the first commit. -/
def sampleHaves : Finset String :=
  {sampleHave, hexEncode firstTree, hexEncode firstFile}

theorem closed_sampleHaves : Search.Closed (objectGraph sampleObjects "repo") sampleHaves := by
  obtain ⟨hcommit, htree, hfile⟩ : (gitObject sampleObjects "repo" sampleHave).map pointsTo =
        some [hexEncode firstTree] ∧
      (gitObject sampleObjects "repo" (hexEncode firstTree)).map pointsTo =
        some [hexEncode firstFile] ∧
      (gitObject sampleObjects "repo" (hexEncode firstFile)).map pointsTo = some [] := by
    decide +kernel
  rintro a ha b ⟨v, hv, hb⟩ -
  have hv : (gitObject sampleObjects "repo" a).map pointsTo = some (pointsTo v) :=
    congrArg (Option.map pointsTo) hv
  have hb : b ∈ pointsTo v := hb
  simp only [sampleHaves, Finset.mem_insert, Finset.mem_singleton] at ha ⊢
  rcases ha with rfl | rfl | rfl
  · rw [← Option.some.inj (hcommit.symm.trans hv), List.mem_singleton] at hb
    exact .inr (.inl hb)
  · rw [← Option.some.inj (htree.symm.trans hv), List.mem_singleton] at hb
    exact .inr (.inr hb)
  · rw [← Option.some.inj (hfile.symm.trans hv)] at hb
    cases hb

theorem isObjectId_sampleHave : ∀ sha ∈ [[sampleHave]].flatten, IsObjectId sha := by
  intro sha hsha
  rw [List.mem_singleton.1 hsha]
  exact ⟨_, rfl, rfl⟩

/-- A client that has the first commit is sent what the second one adds. -/
theorem fetch_sends_missing_sample :
    SendsMissing sampleObjects "repo" [sampleWant] sampleHaves ∧
      ((sampleFetch [] nofun).PassesAll ↔ (sampleFetch [] nofun).haves.flatten = []) := by
  have hsample := fetch_sends_missing sampleObjects "repo" [sampleWant] sampleHaves
    (sampleFetch [] nofun)
  exact ⟨hsample.1 closed_sampleHaves, hsample.2⟩

/-- What the client has is not read. -/
theorem haves_not_read :
    uploadArgs (sampleFetch [[sampleHave]] isObjectId_sampleHave).bytes = ⟨[sampleWant], ∅⟩ ∧
      ¬(sampleFetch [[sampleHave]] isObjectId_sampleHave).PassesAll := by
  refine ⟨uploadArgs_bytes _, fun h => ?_⟩
  have hnone := (passesAll_iff _).1 h
  cases hnone

end Sample

end HoneNode.LinkGit
