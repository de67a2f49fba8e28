import Mathlib.Algebra.GroupWithZero.Nat
import LetsFlutSsh.Lib.WebUrl

/-!
# Strings of the update channel

* `compareVersions`, `parseAssetVersion` : versions, of releases and of asset names;
* `isTrustedReleaseAssetUri` : the guard on addresses; `allowedHost_of_isTrusted` : what it promises;
* `assetSuffix` : the end of the asset names of a platform;
* `parseSha256Manifest` : the manifest of a release;
* `buildCumulativeChangelog` : the notes of the releases that are newer.
-/

namespace LetsFlutSsh.Update
open Lib

abbrev Text := List Char

/-! ## Versions -/

structure Version where
  major : Int
  minor : Int
  patch : Int

/-- `[i64; 3]` in its order. -/
def Version.cmp (a b : Version) : Ordering :=
  (compare a.major b.major).then ((compare a.minor b.minor).then (compare a.patch b.patch))

def stripV (v : Text) : Text := (v.dropPrefix? ['v']).getD v

def parseVersion (v : Text) : Version :=
  let parts := (stripV v).splitOn '.'
  let part (i : Nat) : Int := (parts[i]?.bind (parseSigned 64)).getD 0
  ⟨part 0, part 1, part 2⟩

def compareVersions (a b : Text) : Ordering := (parseVersion a).cmp (parseVersion b)

/-! ## Trusted addresses -/

def githubCom : Text := ['g', 'i', 't', 'h', 'u', 'b', '.', 'c', 'o', 'm']

def githubusercontentCom : Text :=
  ['g', 'i', 't', 'h', 'u', 'b', 'u', 's', 'e', 'r', 'c', 'o', 'n', 't', 'e', 'n', 't', '.', 'c', 'o', 'm']

def AllowedHost (host : Text) : Prop := host = githubCom ∨ '.' :: githubCom <:+ host ∨ '.' :: githubusercontentCom <:+ host

instance (host : Text) : Decidable (AllowedHost host) := inferInstanceAs (Decidable (_ ∨ _))

def isTrustedReleaseAssetUri (uri : Text) : Bool :=
  match uri.dropPrefix? httpsScheme with
  | none => false
  | some rest =>
    let host := plainHost rest
    host ≠ [] && decide (host = githubCom ∨ '.' :: githubCom <:+ host ∨ '.' :: githubusercontentCom <:+ host)

/-! ## Assets -/

def assetSuffix (os arch : String) : Option Text :=
  match os, arch with
  | "linux", "x64" => some "-linux-x64.AppImage".toList
  | "linux", "arm64" => some "-linux-arm64.AppImage".toList
  | "windows", "x64" => some "-windows-x64-setup.exe".toList
  | "windows", "arm64" => some "-windows-arm64-setup.exe".toList
  | "macos", _ => some "-macos-universal.dmg".toList
  | "android", "arm64" => some "-android-arm64.apk".toList
  | "android", "arm32" => some "-android-arm32.apk".toList
  | "android", "x64" => some "-android-x64.apk".toList
  | _, _ => none

def releaseAssetPrefix : Text := ['l', 'e', 't', 's', 'f', 'l', 'u', 't', 's', 's', 'h', '-']

def parseAssetVersion (assetName : Text) : Option Text :=
  (assetName.dropPrefix? releaseAssetPrefix).bind fun rest =>
    (splitOnce '-' rest).bind fun cut =>
      match cut.1.splitOn '.' with
      | [p1, p2, p3] => if [p1, p2, p3].all fun p => p ≠ [] && p.all Char.isDigit then some cut.1 else none
      | _ => none

/-! ## Manifests -/

def parseManifestLine (rawLine : Text) : Option (Text × Text) :=
  let line := trim rawLine
  if line = [] ∨ line.head? = some '#' ∨ line.all (fun c => !isWhitespace c) then none
  else
    let hash := line.takeWhile fun c => !isWhitespace c
    let name := (line.dropWhile fun c => !isWhitespace c).dropWhile isWhitespace
    let name := match name with
      | '*' :: rest => rest
      | _ => name
    if byteLength hash ≠ 64 ∨ name = [] then none else some (name, hash)

/-- The entries of the manifest, the last one first: it is the one that counts. -/
def parseSha256Manifest (content : Text) : List (Text × Text) := ((lines content).filterMap parseManifestLine).reverse

/-! ## Changelogs -/

structure ChangelogRelease where
  tag : Text
  body : Text

/-- The releases that are newer than this build, up to the first that is not. -/
def newerReleases (releases : List ChangelogRelease) (currentVersion : Text) : List ChangelogRelease :=
  releases.takeWhile fun release => compareVersions (stripV release.tag) currentVersion = .gt

def appendNotes (buf : Text) (release : ChangelogRelease) : Text :=
  let body := trim release.body
  if body = [] then buf
  else buf ++ (if buf = [] then [] else ['\n']) ++ "## ".toList ++ release.tag ++ ['\n'] ++ body ++ ['\n']

def buildCumulativeChangelog (releases : List ChangelogRelease) (currentVersion : Text) : Option Text :=
  let trimmed := trim ((newerReleases releases currentVersion).foldl appendNotes [])
  if trimmed = [] then none else some trimmed

/-! ## What the guard promises -/

variable {uri rest host : Text} {P : DomainParser}

theorem isTrusted_iff : isTrustedReleaseAssetUri (httpsScheme ++ rest) = true ↔ AllowedHost (plainHost rest) := by
  have hdrop : (httpsScheme ++ rest).dropPrefix? httpsScheme = some rest :=
    List.dropPrefix?_append_of_beq rest (beq_self_eq_true httpsScheme)
  have hne : AllowedHost (plainHost rest) → plainHost rest ≠ [] := by
    intro h hnil
    rw [hnil] at h
    revert h
    decide
  unfold isTrustedReleaseAssetUri
  rw [hdrop]
  rw [Bool.and_eq_true, decide_eq_true_eq, decide_eq_true_eq]
  exact ⟨And.right, fun h => ⟨hne h, h⟩⟩

theorem https_of_isTrusted (h : isTrustedReleaseAssetUri uri = true) : ∃ rest, uri = httpsScheme ++ rest := by
  unfold isTrustedReleaseAssetUri at h
  split at h
  · cases h
  · next rest hdrop =>
    obtain ⟨p, rfl, hp⟩ := List.dropPrefix?_eq_some_iff.1 hdrop
    exact ⟨rest, by rw [eq_of_beq hp]⟩

theorem allowedHost_of_isTrusted (h : isTrustedReleaseAssetUri (httpsScheme ++ rest) = true) (hplain : PlainAuthority rest)
    (hhost : clientHost P (httpsScheme ++ rest) = some host) : AllowedHost host := by
  have hgithub := clientHost_plain (d := githubCom) hplain (by decide) ⟨'t', by decide⟩ hhost
  have hcontent := clientHost_plain (d := githubusercontentCom) hplain (by decide) ⟨'t', by decide⟩ hhost
  rcases isTrusted_iff.1 h with h | h | h
  · exact .inl (hgithub.1 h)
  · exact .inr (.inl (hgithub.2 h))
  · exact .inr (.inr (hcontent.2 h))

end LetsFlutSsh.Update
