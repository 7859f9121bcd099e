import PuzzleShell.Shell.Request
import PuzzleShell.Text.Lowercase
import PuzzleShell.Text.Occurrence

/-!
# Packages

Packages are names. Installing one that the catalog holds records its name; an installed package
answers when it is asked for its version.
-/

namespace PuzzleShell.Shell

def aptUsage : List String := [
  "Usage: apt <command> [package...]",
  "",
  "Commands:",
  "  install   install packages",
  "  remove    remove packages",
  "  list      list packages (--installed for installed only)",
  "  search    search the package catalog",
  "  update    update the package lists"]

/-- The packages installed so far, and the lines reported on the way. -/
structure PackageDraft where
  installed : List String
  lines : List Line := []

/-- The list is replaced if it has become longer or shorter. -/
def PackageDraft.outcome (d : PackageDraft) (before : List String) : Outcome where
  lines := d.lines
  patch := {
    installed := if d.installed.length = before.length then none else some d.installed }

def installOne (catalog : List String) (d : PackageDraft) (pkg : String) : PackageDraft :=
  if pkg ∉ catalog then
    { d with lines := d.lines ++ [.error s!"E: Unable to locate package {pkg}"] }
  else if pkg ∈ d.installed then
    { d with lines := d.lines ++ [.info s!"{pkg} is already installed."] }
  else {
    installed := d.installed ++ [pkg]
    lines := d.lines ++ [
      .output "Reading package lists... Done",
      .output s!"Setting up {pkg}...",
      .success s!"{pkg} has been successfully installed."] }

def uninstallOne (d : PackageDraft) (pkg : String) : PackageDraft :=
  if pkg ∉ d.installed then
    { d with lines := d.lines ++ [.info s!"Package '{pkg}' is not installed."] }
  else {
    installed := d.installed.erase pkg
    lines := d.lines ++ [.output s!"Removing {pkg}...", .success s!"{pkg} has been removed."] }

/-- Changes the list of installed packages once for each argument that is not an option. -/
def forPackages (r : Request) (args : List String)
    (change : PackageDraft → String → PackageDraft) : Outcome :=
  match args.filter (!Text.startsWith "-" ·) with
  | [] => .fail "apt: need at least one package name"
  | packages => (packages.foldl change ⟨r.state.installed, []⟩).outcome r.state.installed

def listPackages (r : Request) (args : List String) : Outcome :=
  if "--installed" ∈ args then
    if r.state.installed.isEmpty then .inform "No packages installed."
    else .print (r.state.installed.map fun pkg => s!"{pkg}/stable installed")
  else .print (r.context.catalog.map fun pkg =>
    if pkg ∈ r.state.installed then s!"{pkg}/stable [installed]" else s!"{pkg}/stable")

def searchPackages (r : Request) (args : List String) : Outcome :=
  let query := Text.lower (args.headD "")
  match r.context.catalog.filter fun pkg => Text.contains query (Text.lower pkg) with
  | [] => .inform "No packages found."
  | found => .print found

def apt (r : Request) : Outcome :=
  match r.args with
  | [] => { lines := .error "apt: missing command" :: aptUsage.map .info }
  | subcommand :: args =>
    if subcommand = "install" then forPackages r args (installOne r.context.catalog)
    else if subcommand = "remove" ∨ subcommand = "uninstall" then forPackages r args uninstallOne
    else if subcommand = "list" then listPackages r args
    else if subcommand = "search" then searchPackages r args
    else if subcommand = "update" then
      .print ["Hit:1 http://archive.ubuntu.com/ubuntu focal InRelease",
        "Reading package lists... Done"]
    else .fail s!"apt: unknown command '{subcommand}'"

/-- What the packages of the default catalog say of themselves. -/
def packageVersions : List (String × String) := [
  ("nginx", "nginx version: nginx/1.18.0 (Ubuntu)"),
  ("apache2", "Server version: Apache/2.4.41 (Ubuntu)"),
  ("mysql", "mysql  Ver 8.0.35 for Linux on x86_64 (MySQL Community Server - GPL)"),
  ("postgresql", "psql (PostgreSQL) 12.17"),
  ("nodejs", "v12.22.9"),
  ("python3", "Python 3.8.10"),
  ("git", "git version 2.25.1"),
  ("vim", "VIM - Vi IMproved 8.1 (2018 May 18, compiled Jan 01 2024 00:00:00)"),
  ("curl", "curl 7.68.0 (x86_64-pc-linux-gnu) libcurl/7.68.0"),
  ("wget", "GNU Wget 1.20.3 built on linux-gnu.")]

def versionText (pkg : String) : String :=
  (packageVersions.lookup pkg).getD s!"{pkg} version 1.0.0"

/-- The answer to a version query of an installed package; none if the line is not one. -/
def packageVersion? (r : Request) : Option Outcome :=
  if r.name ∈ r.state.installed ∧ ("-v" ∈ r.args ∨ "--version" ∈ r.args) then
    some (.print [versionText r.name])
  else none

end PuzzleShell.Shell
