/-
  Where a package comes from (`service/package_source.rs`).

  Model. The network and the local disk are a parameter: what a request for a URL returns, what
  a local file holds, what a git clone brings. A request fails while it is sent or while its
  body is read. The operating system and architecture that `resolve_github` puts into the name
  of an asset are `Platform`.
-/
import Avix.Lib.Bytes
import Avix.Lib.DotDot
import Avix.Types.Json

namespace Avix

open Lib

inductive PackageSource where
  | httpUrl (url : String)
  | localPath (path : String)
  | gitHubRelease (url : String) (checksumUrl : Option String)
  | gitClone (url : String)
  deriving DecidableEq, Repr

/-- How a request to the network fails. -/
inductive HttpError where
  | send (e : String)
  | body (e : String)
  deriving DecidableEq, Repr

/-- A file below the directory it was cloned into. -/
structure ClonedFile where
  path : List String
  isName : ∀ c ∈ path, IsName c
  nonempty : path ≠ []
  data : Bytes

/-- What lies outside of the process. -/
structure Network where
  /-- `reqwest::get(url)` and its bytes. -/
  getBytes : String → Except HttpError Bytes
  /-- `reqwest::get(url)` and its text. -/
  getText : String → Except HttpError String
  /-- The request of `resolve_github` and its JSON. -/
  getJson : String → Except HttpError Json
  /-- `std::fs::read`. -/
  readFile : String → Except String Bytes
  /-- `git clone --depth=1`. -/
  gitClone : String → Except AvixError (List ClonedFile)

/-- `std::env::consts::OS` and `ARCH`. -/
structure Platform where
  os : String
  arch : String

namespace PackageSource

/-- The release that `resolve_github` asks for: owner, repository and package name. -/
def githubParts (spec : String) : Option (String × String × String) :=
  match splitOnce '/' spec with
  | none => none
  | some (owner, rest) =>
    match splitOnce '/' rest with
    | none => some (owner, "avix", rest)
    | some (repo, name) => some (owner, repo, name)

def apiUrl (owner repo tag : String) : String :=
  let releases := "https://api.github.com/repos/" ++ owner ++ "/" ++ repo ++ "/releases/"
  if tag = "latest" then releases ++ "latest" else releases ++ "tags/" ++ tag

/-- `value[key].as_str().unwrap_or("")`. -/
def strField (j : Json) (key : String) : String := (j.index key).asStr.getD ""

/-- The three names an asset may have. -/
def candidates (platform : Platform) (name version : String) : List String :=
  [name ++ "-v" ++ version ++ "-" ++ platform.os ++ "-" ++ platform.arch ++ ".tar.xz",
    name ++ "-v" ++ version ++ ".tar.xz", name ++ "-" ++ version ++ ".tar.xz"]

/-- The loop over the assets for one candidate: the last asset of that name, and the last
    checksum file. -/
def scanAssets (candidate : String) (assets : List Json) (checksumUrl : Option String) :
    Option String × Option String :=
  assets.foldl (fun (found : Option String × Option String) asset =>
    (if strField asset "name" = candidate then some (strField asset "browser_download_url")
      else found.1,
     if strField asset "name" = "checksums.sha256" then
      some (strField asset "browser_download_url") else found.2)) (none, checksumUrl)

/-- The loop over the candidates, which ends with the first that is found. -/
def findAsset (assets : List Json) : List String → Option String → Option String × Option String
  | [], checksumUrl => (none, checksumUrl)
  | candidate :: rest, checksumUrl =>
    match scanAssets candidate assets checksumUrl with
    | (some url, checksumUrl) => (some url, checksumUrl)
    | (none, checksumUrl) => findAsset assets rest checksumUrl

def resolveGithub (net : Network) (platform : Platform) (spec : String) (version : Option String) :
    Except AvixError PackageSource :=
  match githubParts spec with
  | none => .error (.configParse ("invalid github: source '" ++ spec ++ "'"))
  | some (owner, repo, name) =>
    let tag := version.getD "latest"
    match net.getJson (apiUrl owner repo tag) with
    | .error (.send e) => .error (.configParse ("GitHub API: " ++ e))
    | .error (.body e) => .error (.configParse ("GitHub API json: " ++ e))
    | .ok release =>
      let resolvedVersion := trimStart 'v' ((release.index "tag_name").asStr.getD tag)
      match (release.index "assets").asArray with
      | none => .error (.configParse "GitHub release has no assets")
      | some assets =>
        match findAsset assets (candidates platform name resolvedVersion) none with
        | (none, _) => .error (.configParse ("no matching asset for '" ++ name ++
            "' in GitHub release " ++ tag))
        | (some url, checksumUrl) => .ok (.gitHubRelease url checksumUrl)

def resolve (net : Network) (platform : Platform) (source : String) (version : Option String) :
    Except AvixError PackageSource :=
  match stripStart "github:" source with
  | some spec => resolveGithub net platform spec version
  | none =>
    if startsWith source "github.com/" then
      resolveGithub net platform (trimStartStr "github.com/" source) version
    else
      match stripStart "git:" source with
      | some url => .ok (.gitClone url)
      | none =>
        if startsWith source "https://" ∨ startsWith source "http://" then .ok (.httpUrl source)
        else
          match stripStart "file://" source with
          | some path => .ok (.localPath path)
          | none =>
            if startsWith source "/" ∨ startsWith source "./" ∨ startsWith source "../" then
              .ok (.localPath source)
            else .error (.configParse ("unrecognized source: " ++ source))

/-- `fetch_source` and `fetch_source_bytes`; the text is what a git source gets. -/
def fetch (net : Network) : PackageSource → Except AvixError Bytes
  | .httpUrl url => fetchUrl url
  | .gitHubRelease url _ => fetchUrl url
  | .localPath path =>
    match net.readFile path with
    | .ok bytes => .ok bytes
    | .error e => .error (.configParse ("read " ++ path ++ ": " ++ e))
  | .gitClone _ => .error (.configParse "git clone not implemented")
where
  fetchUrl (url : String) : Except AvixError Bytes :=
    match net.getBytes url with
    | .ok bytes => .ok bytes
    | .error (.send e) => .error (.configParse ("fetch " ++ url ++ ": " ++ e))
    | .error (.body e) => .error (.configParse ("fetch body " ++ url ++ ": " ++ e))

end PackageSource

end Avix
