/-
  SECURITY — what can be installed without the capability for untrusted sources.

  `package_trust_iff`: what a successful call without `install:from-untrusted-source` installs lies
  in the repository avadhpatel/avix on github.com and matches the checksum if one was given, if the
  source does not pass the check
  (`PassesCheck`), or
  * it names that repository in the terms of its own scheme: a URL by its host and path, a clone
    by the repository it is cloned from, a GitHub release by the request to the API that owner,
    repository and version make up; a local path never does;
  * if an agent comes with a checksum, its source is not a clone, and `no_verify` is not set or
    the archive matches anyway.
  A call that can be carried out in its environment needs this.

  Reason. `check_untrusted_source` looks for a text anywhere in the source, while `resolve` goes
  by how the source starts; with `no_verify` it is not called at all. A clone is never compared
  with a checksum.

  Assumption (`GithubServes`): the API of github.com answers with the assets of the repository
  that the URL of the request names.
-/
import Avix.Package.Syscall

namespace Avix.Security

open Except Lib PackageSource AgentInstaller List Option

/-! ## The official repository -/

structure Url where
  host : String
  path : List String
  deriving DecidableEq, Repr

/-- How texts are read as URLs. -/
structure UrlReader where
  /-- By `reqwest`. -/
  http : String → Option Url
  /-- By `git clone`, without a final `.git`; none for a local path. -/
  remote : String → Option Url

/-- Names on github.com are the same up to case. -/
def sameName (a b : String) : Prop := a.toList.map Char.toLower = b.toList.map Char.toLower

def isOfficialRepo (owner repo : String) : Prop :=
  sameName owner "avadhpatel" ∧ sameName repo "avix"

def Url.Official (u : Url) : Prop :=
  u.host = "github.com" ∧
    ∃ owner repo rest, u.path = owner :: repo :: rest ∧ isOfficialRepo owner repo

section Reader

variable (urls : UrlReader)

/-- The location of a resolved source lies in the official repository. -/
def OfficialSource : PackageSource → Prop
  | .httpUrl url => ∃ u ∈ urls.http url, u.Official
  | .localPath _ => False
  | .gitHubRelease url _ => ∃ u ∈ urls.http url, u.Official
  | .gitClone url => ∃ u ∈ urls.remote url, u.Official

def RequestsOfficial (url : String) : Prop :=
  ∃ owner repo rest, urls.http url = some ⟨"api.github.com", "repos" :: owner :: repo :: rest⟩ ∧
    isOfficialRepo owner repo

/-- A GitHub source asks for a release of the official repository. -/
def ReleaseOfficial (spec : String) (version : Option String) : Prop :=
  ∃ owner repo name, PackageSource.githubParts spec = some (owner, repo, name) ∧
    RequestsOfficial urls (PackageSource.apiUrl owner repo (version.getD "latest"))

/-- The source names the official repository in the terms of its scheme. -/
def NamesOfficial (source : String) (version : Option String) : Prop :=
  match stripStart "github:" source with
  | some spec => ReleaseOfficial urls spec version
  | none =>
    if startsWith source "github.com/" then
      ReleaseOfficial urls (trimStartStr "github.com/" source) version
    else
      match stripStart "git:" source with
      | some url => ∃ u ∈ urls.remote url, u.Official
      | none => (startsWith source "https://" ∨ startsWith source "http://") ∧
        ∃ u ∈ urls.http source, u.Official

/-- What the API answers: assets lie in the repository that was asked about. -/
def GithubServes (net : Network) : Prop :=
  ∀ url release assets, net.getJson url = .ok release →
    (release.index "assets").asArray = some assets → ∀ asset ∈ assets,
      ∃ owner repo rest owner' repo' file,
        urls.http url = some ⟨"api.github.com", "repos" :: owner :: repo :: rest⟩ ∧
        urls.http (PackageSource.strField asset "browser_download_url") =
          some ⟨"github.com", owner' :: repo' :: file⟩ ∧
        sameName owner' owner ∧ sameName repo' repo

variable {urls}

theorem official_asset_iff {net : Network} (hserv : GithubServes urls net) {url : String}
    {release asset : Json} {assets : List Json} (hjson : net.getJson url = .ok release)
    (hass : (release.index "assets").asArray = some assets) (hasset : asset ∈ assets) :
    (∃ u ∈ urls.http (strField asset "browser_download_url"), u.Official) ↔
      RequestsOfficial urls url := by
  obtain ⟨owner, repo, rest, owner', repo', file, hurl, hfile, howner, hrepo⟩ :=
    hserv url release assets hjson hass asset hasset
  constructor
  · rintro ⟨u, hu, -, o, r, rest', hpath, ho, hr⟩
    obtain rfl := some.inj (hfile.symm.trans hu)
    obtain ⟨rfl, rfl, -⟩ := cons_eq_cons.mp hpath |>.imp_right cons_eq_cons.mp
    exact ⟨owner, repo, rest, hurl, howner.symm.trans ho, hrepo.symm.trans hr⟩
  · rintro ⟨o, r, rest', hurl', ho, hr⟩
    obtain ⟨-, hpath⟩ := Url.mk.inj (some.inj (hurl.symm.trans hurl'))
    obtain ⟨-, rfl, rfl, -⟩ := cons_eq_cons.mp hpath |>.imp_right fun h =>
      cons_eq_cons.mp h |>.imp_right cons_eq_cons.mp
    exact ⟨_, hfile, rfl, owner', repo', file, rfl, howner.trans ho, hrepo.trans hr⟩

end Reader

/-! ## Resolving -/

variable {assets : List Json} {url : String} {c c' : Option String}

theorem mem_of_scanAssets {candidate : String}
    (h : scanAssets candidate assets c = (some url, c')) :
    ∃ asset ∈ assets, url = strField asset "browser_download_url" := by
  -- over the loop: what has been found is none or the address of an asset
  have hloop : ∀ u ∈ (scanAssets candidate assets c).1, ∃ asset ∈ assets,
      u = strField asset "browser_download_url" := by
    refine foldlRecOn (motive := fun found : Option String × Option String =>
      ∀ u ∈ found.1, ∃ asset ∈ assets, u = strField asset "browser_download_url")
      assets _ (nofun) fun found hfound a ha u hu => ?_
    dsimp only at hu
    split_ifs at hu
    · exact ⟨a, ha, (some.inj hu).symm⟩
    · exact hfound u hu
  exact hloop url (congrArg Prod.fst h)

theorem mem_of_findAsset {candidates : List String}
    (h : findAsset assets candidates c = (some url, c')) :
    ∃ asset ∈ assets, url = strField asset "browser_download_url" := by
  induction candidates generalizing c with
  | nil => exact nomatch h
  | cons candidate rest ih =>
    rw [findAsset] at h
    split at h
    · rename_i hscan
      cases h
      exact mem_of_scanAssets hscan
    · exact ih h

section Resolve

variable {urls : UrlReader} {net : Network} {platform : Platform} {version : Option String}
  {source : PackageSource} {spec : String}

theorem official_resolveGithub (hserv : GithubServes urls net)
    (h : resolveGithub net platform spec version = .ok source) :
    (OfficialSource urls source ↔ ReleaseOfficial urls spec version) ∧
      ¬∃ url, source = .gitClone url := by
  unfold resolveGithub at h
  split at h
  · cases h
  rename_i owner repo name hparts
  dsimp only at h
  split at h
  · cases h
  · cases h
  rename_i release hjson
  split at h
  · cases h
  rename_i assets hass
  split at h
  · cases h
  rename_i url checksumUrl hfound
  cases h
  obtain ⟨asset, hasset, rfl⟩ := mem_of_findAsset hfound
  refine ⟨(official_asset_iff hserv hjson hass hasset).trans ⟨fun hreq => ?_, ?_⟩, nofun⟩
  · exact ⟨owner, repo, name, hparts, hreq⟩
  rintro ⟨o, r, n, hparts', hreq⟩
  have heq := some.inj (hparts.symm.trans hparts')
  obtain ⟨rfl, hrest⟩ := Prod.mk.inj heq
  cases hrest
  exact hreq

variable {text : String}

/-- The last two schemes are local. -/
theorem localPath_of_rest
    (h : (match stripStart "file://" text with
      | some path => Except.ok (localPath path)
      | none =>
        if startsWith text "/" = true ∨ startsWith text "./" = true ∨ startsWith text "../" = true
        then .ok (localPath text)
        else .error (AvixError.configParse ("unrecognized source: " ++ text))) = .ok source) :
    ∃ path, source = .localPath path := by
  split at h
  · exact ⟨_, (ok.inj h).symm⟩
  · split_ifs at h
    exact ⟨_, (ok.inj h).symm⟩

/-- A text does not start in two ways. -/
theorem not_startsWith {p q : String} (h : startsWith text p = true) (hpq : ¬p.toList <+: q.toList)
    (hqp : ¬q.toList <+: p.toList) : ¬startsWith text q = true := by
  intro hq
  have hq' := isPrefixOf_iff_prefix.mp hq
  exact (List.prefix_or_prefix_of_prefix (List.isPrefixOf_iff_prefix.mp h) hq').elim hpq hqp

/-- The text of a source tells where it lies and whether it is a clone. -/
theorem official_resolve (hserv : GithubServes urls net)
    (h : PackageSource.resolve net platform text version = .ok source) :
    (OfficialSource urls source ↔ NamesOfficial urls text version) ∧
      ((∃ url, source = .gitClone url) ↔ startsWith text "git:" = true) := by
  unfold PackageSource.resolve at h
  unfold NamesOfficial
  by_cases hgith : startsWith text "github:" = true
  · have hstrip : stripStart "github:" text = some _ := if_pos hgith
    simp only [hstrip] at h ⊢
    obtain ⟨hoff, hclone⟩ := official_resolveGithub hserv h
    exact ⟨hoff, iff_of_false hclone (not_startsWith hgith (by decide) (by decide))⟩
  have hstrip : stripStart "github:" text = none := if_neg hgith
  simp only [hstrip] at h ⊢
  by_cases hcom : startsWith text "github.com/" = true
  · rw [if_pos hcom] at h ⊢
    obtain ⟨hoff, hclone⟩ := official_resolveGithub hserv h
    exact ⟨hoff, iff_of_false hclone (not_startsWith hcom (by decide) (by decide))⟩
  rw [if_neg hcom] at h ⊢
  by_cases hgit : startsWith text "git:" = true
  · have hstrip : stripStart "git:" text = some _ := if_pos hgit
    simp only [hstrip, ok.injEq] at h ⊢
    obtain rfl := h
    exact ⟨Iff.rfl, iff_of_true ⟨_, rfl⟩ hgit⟩
  have hstrip : stripStart "git:" text = none := if_neg hgit
  simp only [hstrip] at h ⊢
  by_cases hhttp : startsWith text "https://" = true ∨ startsWith text "http://" = true
  · rw [if_pos hhttp] at h
    cases h
    exact ⟨(and_iff_right hhttp).symm, iff_of_false (by simp) hgit⟩
  · rw [if_neg hhttp] at h
    obtain ⟨path, rfl⟩ := localPath_of_rest h
    exact ⟨iff_of_false id fun hn => hhttp hn.1, iff_of_false (by simp) hgit⟩

end Resolve

/-! ## Successful installations -/

section Success

variable {codec : Codecs} {ctx : SyscallContext} {params : Json} {root : PathBuf}
  {env : PackageEnv} {s s' : PackageState} {result : Json}

/-- The source is not stopped by the check for a caller without the capability. -/
def PassesCheck (params : Json) (text : String) : Prop :=
  noVerifyParam params = true ∨ isOfficial text = true

theorem of_admitInstall_ok {cap username source : String}
    (hcap : ctx.token.hasTool "install:from-untrusted-source" = false)
    (h : admitInstall ctx cap username params env s = (s', .ok source)) :
    paramStr params "source" = some source ∧ PassesCheck params source := by
  unfold admitInstall at h
  split at h
  · cases h
  dsimp only at h
  split at h
  · cases h
  split at h
  · cases h
  rename_i text htext
  split_ifs at h with hver
  · cases h
    exact ⟨htext, .inl hver⟩
  unfold checkUntrustedSource at h
  split_ifs at h with hoff
  · cases h
    exact ⟨htext, .inr hoff⟩
  · rw [checkSyscallCapability, hcap] at h
    cases h

/-- The archive of an agent; a clone has none. -/
def agentBytes (net : Network) (source : PackageSource) : Option Bytes :=
  (source.fetch net).toOption

/-- The source was cloned, or downloaded and verified. -/
def ClonedOrVerified (codec : Codecs) (net : Network) (req : AgentInstallRequest)
    (source : PackageSource) : Prop :=
  (∃ url, source = .gitClone url) ∨ ∃ bytes, agentBytes net source = some bytes ∧
    verifyDownload codec net req source bytes = .ok ()

theorem of_agentUnpack_ok {net : Network} {platform : Platform} {req : AgentInstallRequest}
    {io : InstallIo} {fs : FsState} {r : PathBuf × ManifestMetadata}
    (h : (unpack codec net platform req io fs).result = .ok r) :
    ∃ source, PackageSource.resolve net platform req.source req.version = .ok source ∧
      ClonedOrVerified codec net req source := by
  unfold unpack at h
  split at h
  · cases h
  · rename_i url hres
    exact ⟨_, hres, .inl ⟨url, rfl⟩⟩
  · rename_i source _ hres
    refine ⟨source, hres, .inr ?_⟩
    split at h
    · cases h
    rename_i bytes hfetch
    split at h
    · cases h
    rename_i hver
    refine ⟨bytes, ?_, hver⟩
    rw [agentBytes, hfetch]
    rfl

theorem of_installAgent_ok (hcap : ctx.token.hasTool "install:from-untrusted-source" = false)
    (h : (installAgent codec ctx params root env s).2 = .ok result) :
    ∃ text source, (paramStr params "source" = some text ∧ PassesCheck params text) ∧
      PackageSource.resolve env.net env.platform text (versionParam params) = .ok source ∧
      ClonedOrVerified codec env.net (agentRequest params text) source := by
  unfold installAgent at h
  split at h
  · cases h
  rename_i s' text hadmit
  dsimp only [install] at h
  split at h
  · rename_i hinst
    split at hinst
    · cases hinst
    rename_i hunp
    obtain ⟨source, hres, hsour⟩ := of_agentUnpack_ok hunp
    exact ⟨text, source, of_admitInstall_ok hcap hadmit, hres, hsour⟩
  · cases h

/-- A service that is installed was resolved, fetched again and verified. -/
theorem of_installService_ok (hcap : ctx.token.hasTool "install:from-untrusted-source" = false)
    (h : (installService codec ctx params root env s).2 = .ok result) :
    ∃ text source bytes, (paramStr params "source" = some text ∧ PassesCheck params text) ∧
      PackageSource.resolve env.net env.platform text (versionParam params) = .ok source ∧
      ServiceInstaller.fetch env.net' text = .ok bytes ∧
      ServiceInstaller.verifyDownload codec ⟨text, paramStr params "checksum"⟩ bytes = .ok () := by
  unfold installService at h
  split at h
  · cases h
  rename_i s' text hadmit
  split at h
  · cases h
  rename_i hpref
  unfold prefetchService at hpref
  split at hpref
  · cases hpref
  rename_i source hres
  dsimp only [ServiceInstaller.install] at h
  split at h
  · rename_i hinst
    split at hinst
    · cases hinst
    rename_i hunp
    unfold ServiceInstaller.unpack at hunp
    split at hunp
    · cases hunp
    rename_i bytes hfetch
    split at hunp
    · cases hunp
    · rename_i hver
      exact ⟨text, source, bytes, of_admitInstall_ok hcap hadmit, hres, hfetch, hver⟩
  · cases h

end Success

/-! ## What is installed -/

/-- The two calls. -/
inductive InstallCall where
  | agent
  | service
  deriving DecidableEq, Repr

namespace InstallCall

def capability : InstallCall → String
  | .agent => "proc/package/install-agent"
  | .service => "proc/package/install-service"

def run (codec : Codecs) (ctx : SyscallContext) (params : Json) (root : PathBuf)
    (env : PackageEnv) (s : PackageState) : InstallCall → Except SyscallError Json
  | .agent => (installAgent codec ctx params root env s).2
  | .service => (installService codec ctx params root env s).2

/-- The archive that is installed, of a source and what it was resolved to. -/
def bytes (env : PackageEnv) (text : String) (source : PackageSource) : InstallCall → Option Bytes
  | .agent => agentBytes env.net source
  | .service => (ServiceInstaller.fetch env.net' text).toOption

end InstallCall

def UntrustedCaller (ctx : SyscallContext) (call : InstallCall) : Prop :=
  ctx.token.hasTool call.capability = true ∧
    ctx.token.hasTool "install:from-untrusted-source" = false

section Trusted

variable (urls : UrlReader) (codec : Codecs) (ctx : SyscallContext) (params : Json)
  (root : PathBuf) (env : PackageEnv) (s : PackageState)

/-- What is installed lies in the official repository and matches the checksum. -/
def InstallsTrusted (call : InstallCall) : Prop :=
  UntrustedCaller ctx call → ∀ result, call.run codec ctx params root env s = .ok result →
    ∃ text source, paramStr params "source" = some text ∧
      PackageSource.resolve env.net env.platform text (versionParam params) = .ok source ∧
      OfficialSource urls source ∧
      ∀ expected ∈ paramStr params "checksum", ∃ bytes ∈ call.bytes env text source,
        staticVerifyChecksum codec bytes expected = .ok ()

/-- A checksum that comes with an agent is used, or the archive matches it anyway. -/
def ChecksumUsed (text : String) : InstallCall → Prop
  | .agent => ∀ expected ∈ paramStr params "checksum", startsWith text "git:" = false ∧
    (noVerifyParam params = true → ∃ source bytes,
      PackageSource.resolve env.net env.platform text (versionParam params) = .ok source ∧
      agentBytes env.net source = some bytes ∧ staticVerifyChecksum codec bytes expected = .ok ())
  | .service => True

/-- The condition on the parameters. -/
def NamesTrusted (call : InstallCall) : Prop :=
  UntrustedCaller ctx call → ∀ text ∈ paramStr params "source", PassesCheck params text →
    NamesOfficial urls text (versionParam params) ∧ ChecksumUsed codec params env text call

variable {codec params env} {source : PackageSource} {text : String}

theorem staticVerifyChecksum_of_agent {bytes : Bytes} {expected : String}
    (hchec : paramStr params "checksum" = some expected)
    (hver : noVerifyParam params = false)
    (h : verifyDownload codec env.net (agentRequest params text) source bytes = .ok ()) :
    staticVerifyChecksum codec bytes expected = .ok () := by
  unfold verifyDownload at h
  rw [if_neg (by simp [agentRequest, hver])] at h
  simpa only [agentRequest, hchec] using h

/-- The checksum of an agent that is installed matches exactly if it is used. -/
theorem agent_checksum_iff
    (hres : PackageSource.resolve env.net env.platform text (versionParam params) = .ok source)
    (hclone : (∃ url, source = .gitClone url) ↔ startsWith text "git:" = true)
    (hsour : ClonedOrVerified codec env.net (agentRequest params text) source) :
    (∀ expected ∈ paramStr params "checksum", ∃ bytes ∈ agentBytes env.net source,
      staticVerifyChecksum codec bytes expected = .ok ()) ↔
        ChecksumUsed codec params env text .agent := by
  refine forall₂_congr fun expected hexp => ⟨?_, ?_⟩
  · rintro ⟨bytes, hbytes, hmatch⟩
    refine ⟨?_, fun _ => ⟨source, bytes, hres, hbytes, hmatch⟩⟩
    by_contra hgit
    obtain ⟨url, rfl⟩ := hclone.mpr (Bool.eq_true_of_not_eq_false hgit)
    exact absurd hbytes (not_mem_none _)
  · rintro ⟨hgit, hmatch⟩
    cases hver : noVerifyParam params with
    | true =>
      obtain ⟨source', bytes, hres', hbytes, hok⟩ := hmatch hver
      obtain rfl := ok.inj (hres.symm.trans hres')
      exact ⟨bytes, hbytes, hok⟩
    | false =>
      rcases hsour with hsour | ⟨bytes, hbytes, hok⟩
      · have := hclone.mp hsour
        simp [hgit] at this
      · exact ⟨bytes, hbytes, staticVerifyChecksum_of_agent hexp hver hok⟩

variable {urls ctx root s} {call : InstallCall} {result : Json}

/-- Where a call succeeds, its parameters tell where the source lies and whether it matches. -/
theorem of_run_ok (hserves : GithubServes urls env.net) (hunt : UntrustedCaller ctx call)
    (hok : call.run codec ctx params root env s = .ok result) :
    ∃ text source, (paramStr params "source" = some text ∧ PassesCheck params text) ∧
      PackageSource.resolve env.net env.platform text (versionParam params) = .ok source ∧
      (OfficialSource urls source ↔ NamesOfficial urls text (versionParam params)) ∧
      ((∀ expected ∈ paramStr params "checksum", ∃ bytes ∈ call.bytes env text source,
        staticVerifyChecksum codec bytes expected = .ok ()) ↔
          ChecksumUsed codec params env text call) := by
  cases call with
  | agent =>
    obtain ⟨text, source, hadm, hres, hsour⟩ := of_installAgent_ok hunt.2 hok
    obtain ⟨hoff, hclone⟩ := official_resolve hserves hres
    exact ⟨text, source, hadm, hres, hoff, agent_checksum_iff hres hclone hsour⟩
  | service =>
    obtain ⟨text, source, bytes, hadm, hres, hfetch, hver⟩ := of_installService_ok hunt.2 hok
    refine ⟨text, source, hadm, hres, (official_resolve hserves hres).1, iff_of_true ?_ trivial⟩
    intro expected hexp
    refine ⟨bytes, congrArg Except.toOption hfetch, ?_⟩
    rw [ServiceInstaller.verifyDownload, mem_def.mp hexp] at hver
    exact hver

variable (urls codec ctx params root env s)

theorem package_trust_iff (hserves : GithubServes urls env.net) (call : InstallCall) :
    (NamesTrusted urls codec ctx params env call →
      InstallsTrusted urls codec ctx params root env s call) ∧
    ((∃ result, call.run codec ctx params root env s = .ok result) →
      InstallsTrusted urls codec ctx params root env s call →
        NamesTrusted urls codec ctx params env call) := by
  constructor
  · intro h hunt result hok
    obtain ⟨text, source, ⟨htext, hpass⟩, hres, hoff, hchec⟩ := of_run_ok hserves hunt hok
    obtain ⟨hnames, hused⟩ := h hunt text htext hpass
    exact ⟨text, source, htext, hres, hoff.mpr hnames, hchec.mpr hused⟩
  · rintro ⟨result, hok⟩ h hunt text' htext' -
    obtain ⟨text, source, ⟨htext, -⟩, hres, hoff, hchec⟩ := of_run_ok hserves hunt hok
    obtain ⟨t, src, ht, hr, ho, hc⟩ := h hunt result hok
    obtain rfl := some.inj (htext.symm.trans ht)
    obtain rfl := some.inj (htext.symm.trans htext')
    obtain rfl := ok.inj (hres.symm.trans hr)
    exact ⟨hoff.mp ho, hchec.mp hc⟩

end Trusted

namespace Trust

/-- An archive with a manifest. -/
def codec : Codecs where
  untar _ := .ok [.ok { path := .ok "x/manifest.yaml", data := .ok [] }]
  agentManifest _ := .ok ⟨"x", "1"⟩
  serviceUnit _ := .error (.configParse "")
  sha256 _ := []
  receipt _ _ _ := []

/-- A network without the API, where every download succeeds. -/
def net : Network :=
  ⟨fun _ => .ok [], fun _ => .ok "", fun _ => .error (.send ""), fun _ => .ok [], fun _ => .ok []⟩

def env : PackageEnv where
  net := net
  net' := net
  platform := ⟨"linux", "x86_64"⟩
  io := { tempdir := .ok .tmpA }
  now := 0

def ctx : SyscallContext := ⟨1, ⟨["proc/package/install-agent"], ⟨0⟩, ⟨0⟩, none, ""⟩⟩

def state : PackageState := ⟨⟨⟨[], []⟩, []⟩, .initial⟩

def root : PathBuf := .avix

def urls : UrlReader where
  http url :=
    if startsWith url "https://github.com/avadhpatel/avix/" then
      some ⟨"github.com", ["avadhpatel", "avix"]⟩
    else some ⟨"evil.example", []⟩
  remote _ := none

/-- A local archive, without verification. -/
def localParams : Json :=
  .ofMembers [("source", .string "/tmp/evil.tar.xz"), ("no_verify", .bool true)]

/-- A URL that contains the official one. -/
def containsParams : Json :=
  .ofMembers [("source", .string "https://evil.example/github.com/avadhpatel/avix/x.tar.xz")]

def officialParams : Json :=
  .ofMembers [("source", .string "https://github.com/avadhpatel/avix/x.tar.xz")]

end Trust

/-- Two packages from elsewhere are installed without the capability. -/
theorem untrusted_installed_without_capability :
    ¬InstallsTrusted Trust.urls Trust.codec Trust.ctx Trust.localParams Trust.root Trust.env
      Trust.state .agent ∧
    ¬InstallsTrusted Trust.urls Trust.codec Trust.ctx Trust.containsParams Trust.root Trust.env
      Trust.state .agent := by
  constructor
  · intro h
    obtain ⟨text, source, htext, hres, hoff, -⟩ := h ⟨by decide, by decide⟩ _ rfl
    cases htext
    cases hres
    exact hoff
  · intro h
    obtain ⟨text, source, htext, hres, hoff, -⟩ := h ⟨by decide, by decide⟩ _ rfl
    cases htext
    cases hres
    obtain ⟨u, hu, hhost, -⟩ := hoff
    cases hu
    exact absurd hhost (by decide)

/-- The official archive is installed, and what is installed is trusted. -/
theorem official_installed :
    (∃ result, InstallCall.agent.run Trust.codec Trust.ctx Trust.officialParams Trust.root
      Trust.env Trust.state = .ok result) ∧
    InstallsTrusted Trust.urls Trust.codec Trust.ctx Trust.officialParams Trust.root Trust.env
      Trust.state .agent := by
  refine ⟨⟨_, rfl⟩, (package_trust_iff Trust.urls Trust.codec Trust.ctx Trust.officialParams
    Trust.root Trust.env Trust.state (fun _ _ _ h => nomatch h) .agent).1 fun _ text htext _ => ?_⟩
  cases htext
  refine ⟨?_, fun _ h => nomatch h⟩
  exact ⟨.inl (by decide), _, rfl, rfl, "avadhpatel", "avix", [], rfl, rfl, rfl⟩

end Avix.Security
