import SealedStore.CommandLine.Disk

/-!
# The disk of a system

What stands on the disk of a system before anything is written to it: its folders, links and files,
and an empty folder to work in.
-/

namespace SealedStore.Disk

/-- The folder to work in. Its name is empty, as the name of no part of a path is, so no path leads
there by name: only links and the folder itself do. -/
def workFolder : Place := ["tmp", ""]

/-- The folders of a system. -/
def usualFolders : List String :=
  ["/boot", "/dev", "/dev/mqueue", "/dev/pts", "/dev/shm", "/etc", "/etc/alternatives", "/etc/apt",
    "/etc/default", "/etc/init.d", "/etc/ld.so.conf.d", "/etc/pam.d", "/etc/profile.d",
    "/etc/security", "/etc/skel", "/etc/ssl", "/etc/ssl/certs", "/etc/systemd", "/home", "/media",
    "/mnt", "/opt", "/root", "/run", "/run/lock", "/srv", "/sys", "/sys/block", "/sys/bus",
    "/sys/class", "/sys/class/net", "/sys/dev", "/sys/devices", "/sys/firmware", "/sys/fs",
    "/sys/fs/cgroup", "/sys/kernel", "/sys/module", "/sys/power", "/tmp", "/usr", "/usr/bin",
    "/usr/games", "/usr/include", "/usr/lib", "/usr/lib64", "/usr/libexec", "/usr/local",
    "/usr/local/bin", "/usr/local/etc", "/usr/local/games", "/usr/local/include", "/usr/local/lib",
    "/usr/local/sbin", "/usr/local/share", "/usr/local/src", "/usr/sbin", "/usr/share",
    "/usr/share/doc", "/usr/share/man", "/usr/src", "/var", "/var/backups", "/var/cache",
    "/var/lib", "/var/lib/dpkg", "/var/local", "/var/log", "/var/mail", "/var/opt", "/var/spool",
    "/var/tmp"]

/-- The folders where a system tells of itself and of the process that asks. -/
def processFolders : List String :=
  ["/proc", "/proc/1", "/proc/bus", "/proc/driver", "/proc/fs", "/proc/irq", "/proc/self",
    "/proc/self/attr", "/proc/self/fd", "/proc/self/fdinfo", "/proc/self/map_files",
    "/proc/self/net", "/proc/self/ns", "/proc/self/task", "/proc/sys", "/proc/sys/fs",
    "/proc/sys/kernel", "/proc/sys/net", "/proc/sys/vm", "/proc/sysvipc", "/proc/thread-self",
    "/proc/tty"]

/-- The other names of folders. -/
def usualLinks : List (String × Place) :=
  [("/bin", ["usr", "bin"]), ("/dev/fd", ["proc", "self", "fd"]), ("/lib", ["usr", "lib"]),
    ("/lib64", ["usr", "lib64"]), ("/proc/net", ["proc", "self", "net"]),
    ("/proc/self/cwd", workFolder), ("/proc/self/root", []), ("/sbin", ["usr", "sbin"]),
    ("/var/lock", ["run", "lock"]), ("/var/run", ["run"])]

/-- The files of a system. They stand here without their contents. -/
def usualFiles : List String :=
  ["/etc/bash.bashrc", "/etc/debian_version", "/etc/fstab", "/etc/group", "/etc/gshadow",
    "/etc/host.conf", "/etc/hostname", "/etc/hosts", "/etc/issue", "/etc/ld.so.cache",
    "/etc/ld.so.conf", "/etc/login.defs", "/etc/mtab", "/etc/nsswitch.conf", "/etc/os-release",
    "/etc/passwd", "/etc/profile", "/etc/resolv.conf", "/etc/shadow", "/etc/shells",
    "/proc/cmdline", "/proc/cpuinfo", "/proc/devices", "/proc/filesystems", "/proc/loadavg",
    "/proc/meminfo", "/proc/mounts", "/proc/self/auxv", "/proc/self/cgroup", "/proc/self/cmdline",
    "/proc/self/comm", "/proc/self/environ", "/proc/self/exe", "/proc/self/gid_map",
    "/proc/self/io", "/proc/self/limits", "/proc/self/maps", "/proc/self/mountinfo",
    "/proc/self/mounts", "/proc/self/oom_score", "/proc/self/oom_score_adj", "/proc/self/smaps",
    "/proc/self/stat", "/proc/self/statm", "/proc/self/status", "/proc/self/uid_map",
    "/proc/stat", "/proc/sys/kernel/hostname", "/proc/sys/kernel/osrelease",
    "/proc/sys/kernel/ostype", "/proc/uptime", "/proc/version", "/usr/bin/bash", "/usr/bin/cat",
    "/usr/bin/cp", "/usr/bin/env", "/usr/bin/false", "/usr/bin/ls", "/usr/bin/mv", "/usr/bin/rm",
    "/usr/bin/sh", "/usr/bin/true", "/usr/lib/os-release"]

/-- The files that take everything and hold nothing. -/
def usualSinks : List String :=
  ["/dev/null", "/dev/stdin", "/proc/self/fd/0"]

/-- What is there and is not opened: a terminal that nobody sits at, channels of the process, and
its memory from the first byte on. -/
def usualShut : List (String × FileError) :=
  let noDevice : FileError := .other "No such device or address (os error 6)"
  ["/dev/tty", "/proc/self/fd/3", "/proc/self/fd/4", "/proc/self/fd/5"].map (·, noDevice) ++
    [("/proc/self/mem", .other "Input/output error (os error 5)")]

/-- The disk of a system, with an empty folder to work in. -/
def usual : Disk where
  entries := .ofList <|
    (path workFolder :: usualFolders ++ processFolders).map (·, .folder) ++
      usualLinks.map (fun (name, folder) ↦ (name, .link folder)) ++
      usualFiles.map (·, .file []) ++ usualSinks.map (·, .sink) ++
      usualShut.map (fun (name, reason) ↦ (name, .shut reason))
  work := workFolder

end SealedStore.Disk
