import VmsLite.Media.PathNames
import VmsLite.Url.SpecialUrl
import VmsLite.Users.CameraScope

/-!
# The HLS proxy

The route that passes a request for HLS on to the media server. It looks at the path and at the file
as they come out of the router, decoded once, and hands their text to `fetch`, whose URL parser has
its own idea of segments: it takes backslashes for slashes, decodes dots, and drops tabs, newlines
and what is blank at the end. `hlsConfined_iff` says for which requests the forwarded URL is still
below the path that the user was authorised for.

The media server is configured by an origin; a base URL with a path of its own is left out.
-/

set_option autoImplicit false

namespace VmsLite.Media

open Url Users
open Recordings (CameraId)

/-- What the proxy reads of a camera. Cameras get their paths where they are created and keep
them. -/
structure MediaCamera where
  id : CameraId
  mediaMtxPath : String
  subMediaMtxPath : Option String
  generated : ∃ cameraName byte0 byte1 byte2,
    mediaMtxPath = generatePathName cameraName byte0 byte1 byte2
  subOfMain : ∀ path ∈ subMediaMtxPath, path = subPathName mediaMtxPath

/-- The tables that a request is checked against. -/
structure MediaTables where
  cameras : List MediaCamera
  grants : GrantTables

/-- A request as the route sees it: the user that its token or cookie stands for, the decoded
parameters and what follows the first `?` of the raw URL, up to the next. -/
structure HlsRequest where
  user : Option UserTokenPayload
  path : String
  rest : String
  query : Option String

structure Refusal where
  status : ℕ
  error : String
  message : String
  deriving DecidableEq, Repr

/-- Resolves the camera that owns a path, main or sub-stream, and checks access. -/
def authorizePath (tables : MediaTables) (user : UserTokenPayload) (pathName : String)
    (permission : CameraPermissionFlag) : Bool :=
  if isPreviewPath pathName then user.role = .admin
  else
    match tables.cameras.find? fun camera ↦
      camera.mediaMtxPath = pathName || camera.subMediaMtxPath = some pathName with
    | none => false
    | some camera => (CameraScope.forUser tables.grants user).can camera.id (.flag permission)

def guard (tables : MediaTables) (permission : CameraPermissionFlag)
    (user : Option UserTokenPayload) (pathName : String) : Except Refusal UserTokenPayload :=
  match user with
  | none => .error ⟨401, "Unauthorized", "Authentication required"⟩
  | some user =>
    if !isPathName pathName then .error ⟨400, "BadRequest", "Invalid stream path"⟩
    else if !authorizePath tables user pathName permission then
      .error ⟨403, "Forbidden", "No access to this camera"⟩
    else .ok user

/-- What the query adds to the URL. -/
def querySuffix (query : Option String) : Text :=
  match query with
  | none => []
  | some query => if query.isEmpty then [] else '?' :: query.toList

/-- The HLS route: the URL that a request is forwarded to, or the refusal. -/
def hlsRoute (upstream : Origin) (tables : MediaTables) (request : HlsRequest) :
    Except Refusal Text := do
  let _ ← guard tables .canViewLive request.user request.path
  let rest := request.rest.toList
  if rest.isEmpty || (rest.splitOn '/').any fun seg ↦ seg = ['.', '.'] || seg = ['.'] then
    throw ⟨400, "BadRequest", "Invalid HLS resource"⟩
  return upstream.text ++ '/' :: (request.path.toList ++ '/' :: (rest ++ querySuffix request.query))

/-- Whatever URL the request is forwarded to is below its path on the media server. -/
def Confined (upstream : Origin) (tables : MediaTables) (request : HlsRequest) : Prop :=
  ∀ url, hlsRoute upstream tables request = .ok url → ∀ target, parse url = some target →
    target.scheme = upstream.scheme.map Char.toLower ∧ target.authority = upstream.authority ∧
      IsBelow request.path.toList target.path

def Passes (upstream : Origin) (tables : MediaTables) (request : HlsRequest) : Prop :=
  ∃ url, hlsRoute upstream tables request = .ok url

/-- The segments of the file as the URL parser splits it. -/
def fileSegments (request : HlsRequest) : List Text :=
  segments ((trimEnd (request.rest.toList ++ querySuffix request.query)).filter
    fun char ↦ !isTabOrNewline char)

/-! ### Authorised paths -/

theorem underscore_mem_generatePathName (cameraName : String) (byte0 byte1 byte2 : UInt8) :
    '_' ∈ (generatePathName cameraName byte0 byte1 byte2).toList := by
  simp [generatePathName]

/-- Every path that a user can be authorised for has an underscore. -/
theorem underscore_mem_of_authorized {tables : MediaTables} {user : UserTokenPayload}
    {pathName : String} {permission : CameraPermissionFlag}
    (hauthorized : authorizePath tables user pathName permission = true) :
    '_' ∈ pathName.toList := by
  unfold authorizePath at hauthorized
  split_ifs at hauthorized with hpreview
  · have hbegins := List.isPrefixOf_iff_prefix.mp hpreview
    exact hbegins.subset (by decide)
  · split at hauthorized
    · contradiction
    · rename_i camera hfind
      have howner := List.find?_some hfind
      obtain ⟨cameraName, byte0, byte1, byte2, hmain⟩ := camera.generated
      have hunderscore := underscore_mem_generatePathName cameraName byte0 byte1 byte2
      rw [← hmain] at hunderscore
      simp only [Bool.or_eq_true, decide_eq_true_eq] at howner
      rcases howner with rfl | hsub
      · exact hunderscore
      · rw [camera.subOfMain pathName hsub, subPathName, String.toList_append]
        exact List.mem_append_left _ hunderscore

theorem not_dots_of_underscore {name : Text} (h : '_' ∈ name) :
    isDoubleDot name = false ∧ isSingleDot name = false := by
  have hlower : '_' ∈ name.map Char.toLower := List.mem_map.mpr ⟨'_', h, by decide⟩
  constructor
  · by_contra hdots
    simp only [isDoubleDot, Bool.not_eq_false, decide_eq_true_eq, List.mem_cons, List.not_mem_nil,
      or_false] at hdots
    rcases hdots with hdots | hdots | hdots | hdots <;> rw [hdots] at hlower <;> contradiction
  · by_contra hdots
    simp only [isSingleDot, Bool.not_eq_false, decide_eq_true_eq, List.mem_cons, List.not_mem_nil,
      or_false] at hdots
    rcases hdots with hdots | hdots <;> rw [hdots] at hlower <;> contradiction

/-- A path character stands for itself in a URL. -/
theorem isPathChar_spec {char : Char} (h : isPathChar char = true) :
    inPathEncodeSet char = false ∧ char ≠ '%' ∧ isSlash char = false ∧ endsPath char = false ∧
      isControlOrSpace char = false := by
  have hother : ∀ other, isPathChar other = false → char ≠ other := by
    rintro other hnot rfl
    rw [h] at hnot
    contradiction
  obtain ⟨hlow, hhigh⟩ := isPathChar_bounds h
  refine ⟨?_, hother _ (by decide), ?_, ?_, ?_⟩
  · have hnotLow : ¬ char < ' ' := by
      rw [Char.lt_def, UInt32.lt_iff_toNat_lt]
      exact Nat.not_lt.mpr hlow.le
    have hnotHigh : ¬ '~' < char := by
      rw [Char.lt_def, UInt32.lt_iff_toNat_lt]
      exact Nat.not_lt.mpr hhigh.le
    have hnotListed : ¬ char ∈ [' ', '"', '#', '<', '>', '?', '^', '`', '\x7b', '\x7d'] := by
      intro hmem
      have hnone : [' ', '"', '#', '<', '>', '?', '^', '`', '\x7b', '\x7d'].all
          (fun other ↦ !isPathChar other) = true := by decide
      exact hother char (by simpa using List.all_eq_true.mp hnone char hmem) rfl
    simp [inPathEncodeSet, hnotLow, hnotHigh, hnotListed]
  · simp [isSlash, hother '/' (by decide), hother '\\' (by decide)]
  · simp [endsPath, hother '?' (by decide), hother '#' (by decide)]
  · rw [isControlOrSpace, decide_eq_false_iff_not, Char.le_def, UInt32.le_iff_toNat_le]
    exact Nat.not_le.mpr hlow

/-! ### Confinement -/

theorem fileSegments_ne_nil (request : HlsRequest) : fileSegments request ≠ [] :=
  segmentsFrom_ne_nil _ _

theorem guard_ok {tables : MediaTables} {permission : CameraPermissionFlag}
    {user : Option UserTokenPayload} {pathName : String} {accepted : UserTokenPayload}
    (h : guard tables permission user pathName = .ok accepted) :
    isPathName pathName = true ∧ authorizePath tables accepted pathName permission = true := by
  unfold guard at h
  cases user with
  | none => contradiction
  | some user =>
    simp only at h
    split_ifs at h with hname hauthorized
    obtain rfl := Except.ok.inj h
    exact ⟨by simpa using hname, by simpa using hauthorized⟩

theorem hlsRoute_ok {upstream : Origin} {tables : MediaTables} {request : HlsRequest} {url : Text}
    (h : hlsRoute upstream tables request = .ok url) :
    (∀ char ∈ request.path.toList, isPathChar char = true) ∧ '_' ∈ request.path.toList ∧
      url = upstream.text ++
        '/' :: (request.path.toList ++ '/' ::
            (request.rest.toList ++ querySuffix request.query)) := by
  unfold hlsRoute at h
  cases hguard : guard tables .canViewLive request.user request.path with
  | error refusal =>
    rw [hguard] at h
    contradiction
  | ok user =>
    obtain ⟨hname, hauthorized⟩ := guard_ok hguard
    rw [isPathName, Bool.and_eq_true, List.all_eq_true] at hname
    refine ⟨hname.2, underscore_mem_of_authorized hauthorized, ?_⟩
    rw [hguard] at h
    simp only [bind, Except.bind] at h
    split_ifs at h
    exact (Except.ok.inj h).symm

/-- The forwarded URL is read as the origin, the path and the segments of the file. -/
theorem parse_forwarded {upstream : Origin} {tables : MediaTables} {request : HlsRequest}
    {url : Text} (h : hlsRoute upstream tables request = .ok url) :
    parse url = some
      { scheme := upstream.scheme.map Char.toLower, authority := upstream.authority
        path := walk [request.path.toList] (fileSegments request) } := by
  obtain ⟨hchars, hunderscore, rfl⟩ := hlsRoute_ok h
  obtain ⟨hdouble, hsingle⟩ := not_dots_of_underscore hunderscore
  have hplain : ∀ char ∈ request.path.toList, isControlOrSpace char = false :=
    fun char hchar ↦ (isPathChar_spec (hchars char hchar)).2.2.2.2
  have hname : ∀ char ∈ request.path.toList, isSlash char = false ∧ endsPath char = false :=
    fun char hchar ↦ ⟨(isPathChar_spec (hchars char hchar)).2.2.1,
      (isPathChar_spec (hchars char hchar)).2.2.2.1⟩
  have hencode : encodeSegment request.path.toList = request.path.toList :=
    encodeSegment_of_plain fun char hchar ↦ (isPathChar_spec (hchars char hchar)).1
  have hslash : isTabOrNewline '/' = false := by decide
  have hwalk : walk [] (request.path.toList :: fileSegments request) =
      walk [request.path.toList] (fileSegments request) := by
    rw [walk_cons_of_ne_nil _ _ (fileSegments_ne_nil request), closeSegment_encodeSegment]
    simp [hdouble, hsingle, hencode]
  rw [parse_origin_append, trimEnd_append_cons _ _ _ (by decide), List.filter_append,
    filter_of_not_control hplain, List.filter_cons_of_pos (by simp [hslash]), segments,
    segmentsFrom_append_slash _ _ _ hname, List.nil_append]
  rw [← hwalk]
  rfl

/-- A request is confined exactly when it is refused, or the segments of its file, as the URL parser
splits it, never climb out of its path or end up in it again. -/
theorem hlsConfined_iff (upstream : Origin) (tables : MediaTables) (request : HlsRequest) :
    Confined upstream tables request ↔ ¬ Passes upstream tables request ∨
      staysBelow 0 (fileSegments request) = true ∨
        ReturnsTo request.path.toList (fileSegments request) := by
  by_cases hpasses : Passes upstream tables request
  · obtain ⟨url, hurl⟩ := hpasses
    obtain ⟨hchars, hunderscore, -⟩ := hlsRoute_ok hurl
    obtain ⟨hdouble, hsingle⟩ := not_dots_of_underscore hunderscore
    have hbelow := walk_below_iff (fun char hchar ↦ (isPathChar_spec (hchars char hchar)).1)
      (fun hmem ↦ (isPathChar_spec (hchars _ hmem)).2.1 rfl) hdouble hsingle (fileSegments request)
      (fileSegments_ne_nil request)
    rw [← hbelow]
    constructor
    · intro hconfined
      exact Or.inr (hconfined url hurl _ (parse_forwarded hurl)).2.2
    · rintro (hrefused | hpath) other hother target htarget
      · exact absurd ⟨url, hurl⟩ hrefused
      · rw [parse_forwarded hother, Option.some.injEq] at htarget
        subst htarget
        exact ⟨rfl, rfl, hpath⟩
  · constructor
    · intro _
      exact Or.inl hpasses
    · intro _ url hurl
      exact absurd ⟨url, hurl⟩ hpasses

/-- The media server at its default address. -/
def localServer : Origin where
  scheme := ['h', 't', 't', 'p']
  authority := ['1', '2', '7', '.', '0', '.', '0', '.', '1', ':', '8', '8', '8', '8']
  isHttp := by decide
  authority_ne_nil := by decide
  authority_chars := by
    intro char hchar
    have hall : ['1', '2', '7', '.', '0', '.', '0', '.', '1', ':', '8', '8', '8', '8'].all
        (fun other ↦ isAuthorityChar other && !isControlOrSpace other) = true := by decide
    simpa using List.all_eq_true.mp hall char hchar

/-- A camera that an operator may watch, and one that this operator may not. -/
def gateAndSafe : MediaTables where
  cameras := [
    { id := "gate", mediaMtxPath := "gate_000000", subMediaMtxPath := none
      generated := ⟨"Gate", 0, 0, 0, by decide⟩, subOfMain := by simp },
    { id := "safe", mediaMtxPath := "safe_010203", subMediaMtxPath := none
      generated := ⟨"Safe", 1, 2, 3, by decide⟩, subOfMain := by simp }]
  grants := {
    cameraPermissions := [{ userId := "guard", cameraId := "gate", rights := viewOnly }]
    sitePermissions := []
    cameras := [{ id := "gate", siteId := none }, { id := "safe", siteId := none }] }

/-- A request for `..\safe_010203\index.m3u8` below the path of the first camera. -/
def backslashRequest : HlsRequest where
  user := some { id := "guard", role := .operator }
  path := "gate_000000"
  rest := "..\\safe_010203\\index.m3u8"
  query := none

/-- A parent segment spelled with backslashes leads an operator to the video of another camera. -/
theorem not_hlsConfined_backslashes :
    ¬ (∀ upstream tables request, Confined upstream tables request) ∧
      authorizePath gateAndSafe { id := "guard", role := .operator } "safe_010203" .canViewLive =
        false ∧
      (hlsRoute localServer gateAndSafe backslashRequest).toOption.bind parse = some
        { scheme := localServer.scheme, authority := localServer.authority
          path := ["safe_010203".toList, "index.m3u8".toList] } := by
  have hroute : hlsRoute localServer gateAndSafe backslashRequest = .ok
      "http://127.0.0.1:8888/gate_000000/..\\safe_010203\\index.m3u8".toList := by decide
  have hparse : parse "http://127.0.0.1:8888/gate_000000/..\\safe_010203\\index.m3u8".toList = some
      { scheme := localServer.scheme, authority := localServer.authority
        path := ["safe_010203".toList, "index.m3u8".toList] } := by decide
  refine ⟨?_, by decide, ?_⟩
  · intro hconfined
    obtain ⟨-, -, file, more, hpath⟩ := hconfined _ _ _ _ hroute _ hparse
    have hfirst := (List.cons.inj hpath).1
    revert hfirst
    decide
  · rw [hroute]
    exact hparse

end VmsLite.Media
