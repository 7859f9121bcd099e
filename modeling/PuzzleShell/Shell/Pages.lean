import PuzzleShell.Command

/-!
# Help texts and manual pages

The list of commands, the page of each command that has one, and the manual pages.
-/

namespace PuzzleShell.Shell

def generalHelp : List String := [
  "Available commands:",
  "",
  "  ls [options] [path]    - List directory contents (-a, -l)",
  "  cd <path>              - Change directory",
  "  pwd                    - Print working directory",
  "  cat <file>             - Display file contents",
  "  echo <text> [> file]   - Print text or write to file",
  "  mkdir <dir>            - Create directory",
  "  touch <file>           - Create empty file",
  "  rm [-r] <file>         - Remove file or directory",
  "  chmod <mode> <file>    - Change file permissions",
  "  grep <pattern> <file>  - Search for pattern in file",
  "  find <path> -name <n>  - Search for files by name",
  "  du [-h] [-s] [path]    - Show disk usage",
  "  tar -cf <archive> <p>  - Create an archive",
  "  nano/vim <file>        - Edit file",
  "  apt <command>          - Package manager (install, remove, list, search, update)",
  "  ./<script>             - Execute script",
  "  ps, top, free, df      - Inspect the system",
  "  ifconfig, ping <host>  - Inspect the network",
  "  man <command>          - Show a manual page",
  "  clear                  - Clear terminal",
  "  whoami                 - Display current user",
  "  date                   - Display current date/time",
  "  history                - Show command history",
  "  hint                   - Get a hint (costs points)",
  "",
  "Type 'help <command>' for details on a specific command."]

structure HelpPage where
  summary : String
  synopsis : String
  description : List String
  examples : List String
deriving DecidableEq, Repr

def helpPage? : Command → Option HelpPage
  | .ls => some {
      summary := "list directory contents"
      synopsis := "ls [-a] [-l] [PATH]"
      description := [
        "List the entries of PATH, or of the current directory.",
        "-a  include hidden entries (names starting with .)",
        "-l  long format: permissions, owner, size and name"]
      examples := ["ls", "ls -la /tmp", "ls ~/documents"] }
  | .cd => some {
      summary := "change the current directory"
      synopsis := "cd [PATH]"
      description := [
        "Move to PATH. Without an argument, return to the home directory.",
        "PATH may be absolute, relative, ~ or contain . and .."]
      examples := ["cd /var/log", "cd ..", "cd ~"] }
  | .pwd => some {
      summary := "print the current directory"
      synopsis := "pwd"
      description := ["Print the absolute path of the current working directory."]
      examples := ["pwd"] }
  | .cat => some {
      summary := "print file contents"
      synopsis := "cat FILE..."
      description := ["Print the contents of each FILE in order."]
      examples := ["cat notes.txt", "cat /etc/hosts /etc/hostname"] }
  | .echo => some {
      summary := "print text or write it to a file"
      synopsis := "echo TEXT [> FILE | >> FILE]"
      description := [
        "Print TEXT. With > the text replaces the contents of FILE,",
        "with >> it is appended. Either form creates FILE if needed."]
      examples := ["echo hello", "echo \"done\" > /tmp/status.txt", "echo \"more\" >> log.txt"] }
  | .mkdir => some {
      summary := "create directories"
      synopsis := "mkdir DIRECTORY..."
      description := ["Create each DIRECTORY. The parent directory must already exist."]
      examples := ["mkdir projects", "mkdir /tmp/a /tmp/b"] }
  | .touch => some {
      summary := "create empty files"
      synopsis := "touch FILE..."
      description := ["Create each FILE if it does not exist. Existing files are left as they are."]
      examples := ["touch notes.txt", "touch /tmp/marker"] }
  | .rm => some {
      summary := "remove files or directories"
      synopsis := "rm [-r] [-f] TARGET..."
      description := [
        "Remove each TARGET. Directories need -r.",
        "-r  remove directories and their contents",
        "-f  ignore targets that do not exist"]
      examples := ["rm old.txt", "rm -r /tmp/cache", "rm -rf build"] }
  | .chmod => some {
      summary := "change file permissions"
      synopsis := "chmod MODE FILE..."
      description := [
        "Change the mode of each FILE. Supported modes:",
        "+x, 755, 777  make the file executable (rwxr-xr-x)",
        "-x, 644       make the file non-executable (rw-r--r--)"]
      examples := ["chmod +x deploy.sh", "chmod 644 notes.txt"] }
  | .grep => some {
      summary := "search files for a pattern"
      synopsis := "grep PATTERN FILE..."
      description := [
        "Print the lines of each FILE that contain PATTERN, ignoring case.",
        "With several files, each match is prefixed with its file name."]
      examples := ["grep error /var/log/syslog", "grep TODO a.txt b.txt"] }
  | .find => some {
      summary := "search for files by name"
      synopsis := "find [PATH] -name PATTERN"
      description := [
        "Walk PATH and print every entry whose name contains PATTERN.",
        "Wildcards (*) are ignored."]
      examples := ["find / -name secret", "find /var -name \"*.log\""] }
  | .du => some {
      summary := "estimate disk usage"
      synopsis := "du [-h] [-s] [PATH...]"
      description := [
        "Show the size of each entry in PATH and the total.",
        "-h  human-readable sizes (B, K, M, G)",
        "-s  only show the total"]
      examples := ["du /var", "du -sh /var/log"] }
  | .tar => some {
      summary := "create an archive"
      synopsis := "tar -cf ARCHIVE SOURCE"
      description := ["Create ARCHIVE from the file or directory SOURCE."]
      examples := ["tar -cf /tmp/backup.tar /home/user/project"] }
  | .nano => some {
      summary := "edit a file"
      synopsis := "nano FILE  (also vim, vi)"
      description := [
        "Open FILE in the editor. New files are created on save.",
        "Ctrl+S saves, Ctrl+X closes the editor."]
      examples := ["nano config.txt", "vim /etc/hosts"] }
  | .apt => some {
      summary := "package manager"
      synopsis := "apt install|remove|list|search|update [PACKAGE...]"
      description := [
        "install PKG...     install packages",
        "remove PKG...      remove installed packages",
        "list [--installed] list available or installed packages",
        "search QUERY       search the package catalog",
        "update             refresh the package lists"]
      examples := ["apt update", "apt install nginx", "apt list --installed"] }
  | .history => some {
      summary := "show command history"
      synopsis := "history"
      description := ["Print every command entered in this session, numbered."]
      examples := ["history"] }
  | .man => some {
      summary := "show manual pages"
      synopsis := "man COMMAND"
      description := ["Show the manual page for COMMAND."]
      examples := ["man ls"] }
  | .ps => some {
      summary := "list running processes"
      synopsis := "ps [aux]"
      description := ["Show a snapshot of the running processes."]
      examples := ["ps", "ps aux"] }
  | .df => some {
      summary := "report filesystem disk space"
      synopsis := "df [-h]"
      description := ["Show used and available space on each mounted filesystem."]
      examples := ["df", "df -h"] }
  | .free => some {
      summary := "show memory usage"
      synopsis := "free [-h]"
      description := ["Show total, used and free memory."]
      examples := ["free", "free -h"] }
  | .top => some {
      summary := "show system load and processes"
      synopsis := "top  (also htop)"
      description := ["Show CPU and memory load and the busiest processes."]
      examples := ["top", "htop"] }
  | .ifconfig => some {
      summary := "show network interfaces"
      synopsis := "ifconfig"
      description := ["Show the configuration of each network interface."]
      examples := ["ifconfig"] }
  | .ping => some {
      summary := "test network connectivity"
      synopsis := "ping HOST"
      description := ["Send echo requests to HOST and report the replies."]
      examples := ["ping localhost", "ping example.com"] }
  | .clear | .help | .whoami | .date | .uname => none

def manualPages : List (String × List String) := [
  ("ls", [
    "LS(1)",
    "",
    "NAME",
    "       ls - list directory contents",
    "",
    "SYNOPSIS",
    "       ls [OPTION]... [FILE]...",
    "",
    "OPTIONS",
    "       -a     do not ignore entries starting with .",
    "       -l     use a long listing format"]),
  ("cd", [
    "CD(1)",
    "",
    "NAME",
    "       cd - change directory",
    "",
    "SYNOPSIS",
    "       cd [DIR]",
    "",
    "DESCRIPTION",
    "       Change the current directory to DIR."]),
  ("cat", [
    "CAT(1)",
    "",
    "NAME",
    "       cat - concatenate files and print",
    "",
    "SYNOPSIS",
    "       cat [FILE]..."])]

end PuzzleShell.Shell
